import TaggedWords.Execution.Basic

/-!
# Sessions

A session calls the runtime from outside a hosted program.  It installs an arena and holds it
until it lets go of it.

* `Call`           a call of a session;
* `Call.perform`   makes a call;
* `Session.run`    makes calls one after the other.
-/

namespace TaggedWords

inductive Call where
  | install (arena : Arena)
  | uninstall
  | installed
  | equal (a b : Word)
  | print (w : Word)
  | error (code : Int)

inductive Reply where
  | done
  | install (result : Except Failure Unit)
  | word (w : Word)
  | bool (b : Bool)

open Execution in
/-- Tells the reply, and whether an arena is held afterwards. -/
def Call.perform (holding : Bool) : Call → Action (Reply × Bool)
  | .install arena => do
    let result ← Execution.install arena
    return (.install result, holding || result.isOk)
  | .uninstall => do
    if holding then Execution.uninstall
    return (.done, false)
  | .installed => return (.bool (← isInstalled), holding)
  | .equal a b => return (.word (← Execution.equal a b), holding)
  | .print w => return (.word (← Execution.print w), holding)
  | .error code => Execution.error code

def Session.run (holding : Bool) : List Call → Action (List Reply × Bool)
  | [] => return ([], holding)
  | call :: rest => do
    let (reply, holding) ← call.perform holding
    let (replies, holding) ← Session.run holding rest
    return (reply :: replies, holding)

end TaggedWords
