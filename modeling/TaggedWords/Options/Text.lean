import TaggedWords.Options.Suggest
import TaggedWords.Text.Plain

/-!
# What the command line is answered with

The texts are made of pieces that differ in style, and are shown as plain text.

* `Rejection.pieces`   the pieces that tell what is wrong with a command line;
* `Rejection.text`     the same, with hints, as it is shown;
* `Flag.text`          the help text, and the version.
-/

namespace TaggedWords

def Setting.usage : Setting → String
  | .heapWords => "--heap-words <HEAP_WORDS>"
  | .log => "--log <LOG_FILTER>"

def Flag.usage : Flag → String
  | .help => "--help"
  | .version => "--version"

def Switch.usage : Switch → String
  | .setting s => s.usage
  | .flag f => f.usage

def SizeError.message (text : String) : SizeError → String
  | .notACount e => "`" ++ text ++ "` is not a word count: " ++ e.message
  | .outOfRange =>
    "arena size must be between " ++ toString Arena.minWords ++ " and " ++ toString Arena.maxWords
      ++ " words"

def usageLine (arguments : List String) : String :=
  "Usage: tagrt " ++ " ".intercalate arguments

def anyUsage : String := usageLine ["[OPTIONS]"]

/-- How the program is called with some options, or with any if there are none. -/
def usageOf : List Switch → String
  | [] => anyUsage
  | switches => usageLine (switches.map Switch.usage)

def settingsUsage : String :=
  "<" ++ "|".intercalate ([Setting.heapWords, .log].map Setting.usage) ++ ">"

namespace Rejection

/-- The tail follows in the style in which the pieces end. -/
def pieces (tail : String) : Rejection → List String
  | .badSize text e =>
    ["error:", " invalid value '", text, "' for '", Setting.heapWords.usage,
      "': " ++ e.message text ++ tail]
  | .missingValue s =>
    ["error:", " a value is required for '", s.usage, "' but none was supplied" ++ tail]
  | .unknownArgument text => ["error:", " unexpected argument '", text, "' found" ++ tail]
  | .unknownName name _ => ["error:", " unexpected argument '", "--" ++ name, "' found" ++ tail]
  | .repeated s =>
    ["error:", " the argument '", s.usage, "' cannot be used multiple times" ++ tail]
  | .needlessValue flag value _ =>
    ["error:", " unexpected value '", value, "' for '", flag.usage,
      "' found; no more were expected" ++ tail]

def suggestion? : Rejection → Option Switch
  | .unknownName name _ => Switch.like? name
  | _ => none

def tip (r : Rejection) : String :=
  match r.suggestion? with
  | none => ""
  | some switch => "\n\n  tip: a similar argument exists: '--" ++ switch.name ++ "'"

def switchesOf (made : List Setting) (suggestion : Option Switch) : List Switch :=
  let switches := made.map Switch.setting
  switches ++ suggestion.toList.filter (· ∉ switches)

/-- How the program is called.  That does not help with a bad or missing value. -/
def usage? : Rejection → Option String
  | .badSize _ _ | .missingValue _ => none
  | .unknownArgument _ | .repeated _ => some anyUsage
  | .unknownName name made => some (usageOf (switchesOf made (Switch.like? name)))
  | .needlessValue flag _ [] => some (usageLine [flag.usage])
  | .needlessValue flag _ (_ :: _) => some (usageLine [flag.usage, settingsUsage])

def hints (r : Rejection) : String :=
  r.tip ++ (r.usage?.map ("\n\n" ++ ·)).getD "" ++ "\n\nFor more information, try '"

def text (layout : Plain.Layout) (r : Rejection) : String :=
  plainPieces layout (r.pieces r.hints ++ ["--help", "'.\n"])

end Rejection

/-- A text whose lines after the first begin below a column. -/
def hanging (column : Nat) (text : String) : String :=
  String.join (text.toList.map fun c =>
    if c = '\n' then "\n" ++ String.ofList (List.replicate column ' ') else String.singleton c)

def helpColumn : Nat := 33

/-- What a setting is without the command line: its text in the environment, and its default. -/
def fallbacks (name : String) (value : Option String) (default : String) : String :=
  "[env: " ++ name ++ "=" ++ hanging helpColumn (value.getD "") ++ "] [default: " ++ default ++ "]"

def helpPieces (env : Environment) : List String :=
  ["Run a compiled program over tagged words\n\n", anyUsage, "\n\n", "Options:", "\n      ",
    "--heap-words",
    " <HEAP_WORDS>  Arena size in 32-bit words "
      ++ fallbacks "TAGRT_HEAP_WORDS" env.heapWords (toString Options.default.heapWords)
      ++ "\n      ",
    "--log",
    " <LOG_FILTER>         Log filter, in `tracing_subscriber::EnvFilter` syntax "
      ++ fallbacks "TAGRT_LOG" env.log Options.default.logFilter ++ "\n  ",
    "-h", ", ", "--help", "                     Print help\n  ",
    "-V", ", ", "--version", "                  Print version\n"]

def Flag.text (layout : Plain.Layout) (env : Environment) : Flag → String
  | .help => plainPieces layout (helpPieces env)
  | .version => "tagrt 0.1.0\n"

end TaggedWords
