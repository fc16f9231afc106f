import TaggedWords.Proofs.Options.Accepted
import TaggedWords.Proofs.Options.Sizes

/-!
# Settings in any order

A setting is written with its value as an argument of its own or behind an equals sign.  The value of
the first spelling is looked at late, when the next option or the end is met; but the settings are
still made in their order, so the two spellings come to the same.  As no setting is made twice, the
order does not matter either: each setting is what is given for it, else what the environment says,
else its default.

* `Occurrence`                 a setting on the command line, in one of its spellings;
* `Environment.textFor`        the text that counts for a setting;
* `request_arguments`          reading such a command line makes its settings one after the other;
* `Given.Records`              the settings that were made are those that were asked for;
* `makeAll_eq_ok_iff`          they are made exactly if none is repeated and all can be read;
* `request_whatever_the_order`   what results from a command line and an environment.
-/

namespace TaggedWords

/-! ## settings on the command line -/

def Setting.option : Setting → String
  | .heapWords => "--heap-words"
  | .log => "--log"

inductive Occurrence where
  /-- The value is an argument of its own, which must not look like an option. -/
  | apart (s : Setting) (value : String) (free : value = "-" ∨ value.toList.head? ≠ some '-')
  | joined (s : Setting) (value : String)

namespace Occurrence

def asked : Occurrence → Setting × String
  | .apart s value _ => (s, value)
  | .joined s value => (s, value)

def arguments : Occurrence → List String
  | .apart s value _ => [s.option, value]
  | .joined s value => [s.option ++ "=" ++ value]

end Occurrence

def Environment.text (env : Environment) : Setting → Option String
  | .heapWords => env.heapWords
  | .log => env.log

/-- The text that counts for a setting: what is asked for, else what the environment holds. -/
def Environment.textFor (env : Environment) (asked : List (Setting × String)) (s : Setting) :
    Option String :=
  asked.lookup s <|> env.text s

/-- The arena size that results from a text, or from none. -/
inductive SizeFrom : Option String → Nat → Prop where
  | default : SizeFrom none 100000
  | text {text : String} {words : Nat} (h : readArenaSize text = .ok words) :
    SizeFrom (some text) words

theorem sizeFrom_none {words : Nat} : SizeFrom none words ↔ words = 100000 := by
  constructor
  · intro h
    cases h
    rfl
  · rintro rfl
    exact .default

theorem sizeFrom_some {text : String} {words : Nat} :
    SizeFrom (some text) words ↔ readArenaSize text = .ok words := by
  constructor
  · intro h
    cases h with
    | text h => exact h
  · exact .text

/-! ## the arguments as they are read -/

namespace Token

theorem ofArgument_option (s : Setting) : ofArgument s.option = .setting s none := by
  cases s <;> decide

theorem ofArgument_joined (s : Setting) (value : String) :
    ofArgument (s.option ++ "=" ++ value) = .setting s (some value) := by
  have hlist : (s.option ++ "=" ++ value).toList =
      '-' :: '-' :: ((Switch.setting s).name.toList ++ '=' :: value.toList) := by
    cases s <;> simp [Setting.option, Switch.name]
  have hname : Switch.ofName? (Switch.setting s).name = some (.setting s) :=
    Switch.ofName?_name (.setting s)
  unfold ofArgument
  rw [hlist]
  -- no character of the name is an equals sign, so the value is all that stands behind the first one
  cases s <;> simp_all [ofName, valueOf, Switch.name]

theorem ofArgument_free {value : String}
    (free : value = "-" ∨ value.toList.head? ≠ some '-') : ofArgument value = .plain value := by
  rcases free with rfl | hhead
  · rfl
  · unfold ofArgument
    split <;> simp_all

end Token

namespace Given

variable {given given' : Given} {env : Environment} {asked more : List (Setting × String)}
  {entries : List Entry} {s : Setting} {value : String} {words : Nat}

def makeAll (given : Given) (asked : List (Setting × String)) : Except Rejection Given :=
  asked.foldlM (fun given c => given.accept c.1 c.2) given

/-! ## the settings that are made -/

/-- The settings that were made are those that were asked for, each value as it is read. -/
def Records (given : Given) (asked : List (Setting × String)) : Prop :=
  asked.mapM (fun c => Entry.read c.1 c.2) = .ok given.entries

theorem records_nil : ({} : Given).Records [] := rfl

theorem records_cons {c : Setting × String} : Records ⟨entries⟩ (c :: asked) ↔
    ∃ entry rest, Entry.read c.1 c.2 = .ok entry ∧ Records ⟨rest⟩ asked ∧ entries = entry :: rest := by
  unfold Records
  rw [List.mapM_cons]
  constructor
  · intro h
    obtain ⟨entry, hread, hrest⟩ := exists_of_bind_eq_ok h
    obtain ⟨rest, hasked, hentries⟩ := exists_of_bind_eq_ok hrest
    cases hentries
    exact ⟨entry, rest, hread, hasked, rfl⟩
  · rintro ⟨entry, rest, hread, hasked, rfl⟩
    dsimp only at hasked
    rw [hread, hasked]
    rfl

theorem Records.made_eq (h : given.Records asked) : given.made = asked.map Prod.fst := by
  obtain ⟨entries⟩ := given
  induction asked generalizing entries with
  | nil =>
    cases h
    rfl
  | cons c asked ih =>
    obtain ⟨entry, rest, hread, hasked, rfl⟩ := records_cons.mp h
    have hrest : (Given.mk rest).made = asked.map Prod.fst := ih rest hasked
    show entry.setting :: (Given.mk rest).made = _
    rw [hrest, Entry.setting_of_read hread, List.map_cons]

theorem accept_eq_ok_iff (h : given.Records asked) : given.accept s value = .ok given' ↔
    s ∉ asked.map Prod.fst ∧ given'.Records (asked ++ [(s, value)]) := by
  unfold Records at h ⊢
  rw [accept, Records.made_eq h, List.mapM_append, h]
  by_cases hs : s ∈ asked.map Prod.fst
  · rw [if_pos hs]
    simp [hs]
  · rw [if_neg hs, List.mapM_cons]
    obtain ⟨entries'⟩ := given'
    cases hread : Entry.read s value with
    | error e => simp [bind, Except.bind]
    | ok entry => simp [hs, bind, Except.bind, pure, Except.pure, eq_comm]

theorem Records.unique (h : given.Records asked) (h' : given'.Records asked) : given = given' := by
  obtain ⟨entries⟩ := given
  obtain ⟨entries'⟩ := given'
  cases h.symm.trans h'
  rfl

theorem Records.exists_of_append (h : given.Records (asked ++ more)) :
    ∃ first : Given, first.Records asked := by
  unfold Records at h
  rw [List.mapM_append] at h
  obtain ⟨entries, hentries, -⟩ := exists_of_bind_eq_ok h
  exact ⟨⟨entries⟩, hentries⟩

/-- **Settings are made one after the other exactly if none is repeated and all their values can be
read.** -/
theorem makeAll_eq_ok_iff (h : given.Records asked) (hnodup : (asked.map Prod.fst).Nodup) :
    given.makeAll more = .ok given' ↔
      ((asked ++ more).map Prod.fst).Nodup ∧ given'.Records (asked ++ more) := by
  induction more generalizing given asked with
  | nil =>
    rw [List.append_nil]
    constructor
    · intro hmake
      cases hmake
      exact ⟨hnodup, h⟩
    · rintro ⟨-, h'⟩
      rw [h.unique h']
      rfl
  | cons c more ih =>
    have hsplit : asked ++ c :: more = asked ++ [c] ++ more := by simp
    have hmore : (asked ++ [c]).map Prod.fst = asked.map Prod.fst ++ [c.1] := by simp
    rw [hsplit]
    show given.accept c.1 c.2 >>= (fun next => next.makeAll more) = .ok given' ↔ _
    constructor
    · intro hmake
      obtain ⟨next, haccept, hrest⟩ := exists_of_bind_eq_ok hmake
      obtain ⟨hnew, hnext⟩ := (accept_eq_ok_iff h).mp haccept
      refine (ih hnext ?_).mp hrest
      rw [hmore]
      refine List.nodup_append.mpr ⟨hnodup, List.pairwise_singleton _ c.1, fun s hs t ht => ?_⟩
      rw [List.mem_singleton.mp ht]
      exact fun heq => hnew (heq ▸ hs)
    · rintro ⟨hall, hrecords⟩
      have hfirst : ((asked ++ [c]).map Prod.fst).Nodup := by
        rw [List.map_append] at hall
        exact (List.nodup_append.mp hall).1
      have hnew : c.1 ∉ asked.map Prod.fst := by
        rw [hmore] at hfirst
        exact fun hmem => (List.nodup_append.mp hfirst).2.2 c.1 hmem c.1 List.mem_cons_self rfl
      obtain ⟨next, hnext⟩ := hrecords.exists_of_append
      have haccept : given.accept c.1 c.2 = .ok next := (accept_eq_ok_iff h).mpr ⟨hnew, hnext⟩
      rw [haccept]
      exact (ih hnext hfirst).mpr ⟨hall, hrecords⟩

theorem makeAll_start_eq_ok_iff : ({} : Given).makeAll asked = .ok given ↔
    (asked.map Prod.fst).Nodup ∧ given.Records asked :=
  makeAll_eq_ok_iff records_nil .nil

theorem exists_records (h : ∀ text, (Setting.heapWords, text) ∈ asked →
    ∃ words, readArenaSize text = .ok words) : ∃ given : Given, given.Records asked := by
  induction asked with
  | nil => exact ⟨_, records_nil⟩
  | cons c asked ih =>
    obtain ⟨⟨rest⟩, hrest⟩ := ih fun text hmem => h text (List.mem_cons_of_mem c hmem)
    obtain ⟨s, value⟩ := c
    cases s with
    | log => exact ⟨⟨.log value :: rest⟩, records_cons.mpr ⟨_, rest, rfl, hrest, rfl⟩⟩
    | heapWords =>
      obtain ⟨words, hwords⟩ := h value List.mem_cons_self
      have hread : Entry.read .heapWords value = .ok (.heapWords words) := by
        rw [Entry.read, hwords]
      exact ⟨⟨.heapWords words :: rest⟩, records_cons.mpr ⟨_, rest, hread, hrest, rfl⟩⟩

/-! ## the options that result -/

theorem Records.log_eq (h : given.Records asked) : given.log = asked.lookup .log := by
  obtain ⟨entries⟩ := given
  induction asked generalizing entries with
  | nil =>
    cases h
    rfl
  | cons c asked ih =>
    obtain ⟨entry, rest, hread, hasked, rfl⟩ := records_cons.mp h
    have hrest := ih rest hasked
    obtain ⟨s, value⟩ := c
    cases s with
    | log =>
      cases hread
      rfl
    | heapWords =>
      have hentry := Entry.setting_of_read hread
      cases entry with
      | log => contradiction
      | heapWords => exact hrest

theorem Records.heapWords_eq (h : given.Records asked) :
    (asked.lookup .heapWords).map readArenaSize = given.heapWords.map .ok := by
  obtain ⟨entries⟩ := given
  induction asked generalizing entries with
  | nil =>
    cases h
    rfl
  | cons c asked ih =>
    obtain ⟨entry, rest, hread, hasked, rfl⟩ := records_cons.mp h
    have hrest := ih rest hasked
    obtain ⟨s, value⟩ := c
    cases s with
    | log =>
      cases hread
      exact hrest
    | heapWords =>
      simp only [Entry.read] at hread
      split at hread
      · next words hwords =>
        cases hread
        exact congrArg some hwords
      · contradiction

theorem arenaSize_eq_ok_iff (h : given.Records asked) :
    given.arenaSize env = .ok words ↔ SizeFrom (env.textFor asked .heapWords) words := by
  have hsize := h.heapWords_eq
  unfold arenaSize Environment.textFor
  cases hgiven : given.heapWords with
  | some size =>
    cases htext : asked.lookup .heapWords with
    | none => simp [hgiven, htext] at hsize
    | some text =>
      rw [hgiven, htext] at hsize
      have hread : readArenaSize text = .ok size := Option.some.inj hsize
      show Except.ok size = .ok words ↔ SizeFrom (some text) words
      rw [sizeFrom_some, hread, Except.ok.injEq, Except.ok.injEq]
  | none =>
    cases htext : asked.lookup .heapWords with
    | some text => simp [hgiven, htext] at hsize
    | none =>
      show _ ↔ SizeFrom env.heapWords words
      cases env.heapWords with
      | none =>
        show Except.ok 100000 = .ok words ↔ _
        rw [sizeFrom_none, Except.ok.injEq, eq_comm]
      | some text =>
        rw [sizeFrom_some]
        cases hread : readArenaSize text <;> simp [hread]

theorem complete_eq_ok_iff {options : Options} (h : given.Records asked) :
    given.complete env = .ok options ↔
      SizeFrom (env.textFor asked .heapWords) options.heapWords ∧
        options.logFilter = (env.textFor asked .log).getD "warn" := by
  have hfilter : given.logFilter env = (env.textFor asked .log).getD "warn" := by
    rw [logFilter, h.log_eq]
    rfl
  obtain ⟨words, filter⟩ := options
  rw [← arenaSize_eq_ok_iff h, ← hfilter]
  unfold complete
  cases given.arenaSize env with
  | error e => simp [bind, Except.bind]
  | ok size => simp [bind, Except.bind, pure, Except.pure, eq_comm]

theorem complete_congr {env' : Environment} (hset : given.heapWords ≠ none)
    (hlog : env'.log = env.log) : given.complete env' = given.complete env := by
  unfold complete arenaSize logFilter
  rw [hlog]
  cases hgiven : given.heapWords with
  | none => contradiction
  | some words => rfl

end Given

namespace Reading

section
variable {env : Environment} {r : Reading} {argument : String} {rest : List String} {s : Setting}

theorem request_of_option (h : Token.ofArgument argument = .setting s none) :
    r.request env (argument :: rest) =
      r.settle >>= fun given => request env ⟨given, some (s, none)⟩ rest := by
  simp only [request, h]

theorem request_of_joined {value : String}
    (h : Token.ofArgument argument = .setting s (some value)) :
    r.request env (argument :: rest) =
      r.settle >>= fun given => given.accept s value >>= fun given =>
        request env ⟨given, none⟩ rest := by
  simp only [request, h]

theorem request_of_plain {given : Given} {text : String}
    (h : Token.ofArgument argument = .plain text) :
    request env ⟨given, some (s, none)⟩ (argument :: rest) =
      request env ⟨given, some (s, some text)⟩ rest := by
  simp only [request, h]

end

/-- **Reading a command line of settings makes them one after the other**, and completes them in the
end.  That a value is looked at late does not matter. -/
theorem request_arguments (env : Environment) (r : Reading) (os : List Occurrence) :
    r.request env (os.flatMap Occurrence.arguments) = (do
      let given ← r.settle
      let given ← given.makeAll (os.map Occurrence.asked)
      return .run (← given.complete env)) := by
  induction os generalizing r with
  | nil => rfl
  | cons o os ih =>
    rw [List.flatMap_cons, List.map_cons]
    cases o with
    | apart s value free =>
      show r.request env (s.option :: value :: os.flatMap Occurrence.arguments) = _
      rw [request_of_option (Token.ofArgument_option s)]
      refine bind_congr fun given => ?_
      rw [request_of_plain (Token.ofArgument_free free), ih, Given.makeAll, List.foldlM_cons,
        bind_assoc]
      rfl
    | joined s value =>
      show r.request env ((s.option ++ "=" ++ value) :: os.flatMap Occurrence.arguments) = _
      rw [request_of_joined (Token.ofArgument_joined s value)]
      refine bind_congr fun given => ?_
      rw [Given.makeAll, List.foldlM_cons, bind_assoc]
      refine bind_congr fun given' => ?_
      rw [ih]
      rfl

end Reading

/-! ## what a command line comes to -/

section
variable {asked asked' : List (Setting × String)} {s : Setting} {value : String}

theorem lookup_eq_some_iff (hnodup : (asked.map Prod.fst).Nodup) :
    asked.lookup s = some value ↔ (s, value) ∈ asked := by
  induction asked with
  | nil => simp
  | cons c asked ih =>
    obtain ⟨t, text⟩ := c
    rw [List.map_cons, List.nodup_cons] at hnodup
    obtain ⟨hnew, hnodup⟩ := hnodup
    by_cases hs : s = t
    · subst hs
      have habsent : (s, value) ∉ asked := by
        intro hmem
        exact hnew (List.mem_map.mpr ⟨(s, value), hmem, rfl⟩)
      rw [List.lookup_cons_self, List.mem_cons]
      simp [habsent, eq_comm]
    · have hbeq : (s == t) = false := by simpa using hs
      rw [List.lookup_cons, hbeq, List.mem_cons]
      simp [hs, ih hnodup]

theorem lookup_eq_of_perm (h : asked.Perm asked') (hnodup : (asked.map Prod.fst).Nodup) :
    asked.lookup s = asked'.lookup s := by
  have hnodup' : (asked'.map Prod.fst).Nodup := (h.map Prod.fst).nodup hnodup
  apply Option.ext
  intro value
  rw [lookup_eq_some_iff hnodup, lookup_eq_some_iff hnodup', h.mem_iff]

end

section
variable {env env' : Environment} {os os' : List Occurrence} {request : Request}

def argumentsOf (os : List Occurrence) : List String := os.flatMap Occurrence.arguments

theorem request_eq (env : Environment) (os : List Occurrence) :
    Options.request (argumentsOf os) env = (do
      let given ← ({} : Given).makeAll (os.map Occurrence.asked)
      return .run (← given.complete env)) :=
  Reading.request_arguments env {} os

/-- **A command line of settings is accepted exactly if none is repeated and the size that counts can
be read.**  The options that result are the texts that count, or the defaults. -/
theorem request_eq_ok_iff : Options.request (argumentsOf os) env = .ok request ↔
    ((os.map Occurrence.asked).map Prod.fst).Nodup ∧ ∃ options, request = .run options ∧
      SizeFrom (env.textFor (os.map Occurrence.asked) .heapWords) options.heapWords ∧
      options.logFilter = (env.textFor (os.map Occurrence.asked) .log).getD "warn" := by
  rw [request_eq]
  generalize os.map Occurrence.asked = asked
  constructor
  · intro h
    obtain ⟨given, hgiven, hrest⟩ := exists_of_bind_eq_ok h
    obtain ⟨options, hcomplete, hrun⟩ := exists_of_bind_eq_ok hrest
    cases hrun
    obtain ⟨hnodup, hrecords⟩ := Given.makeAll_start_eq_ok_iff.mp hgiven
    exact ⟨hnodup, options, rfl, (Given.complete_eq_ok_iff hrecords).mp hcomplete⟩
  · rintro ⟨hnodup, options, rfl, hsize, hfilter⟩
    have hread : ∀ text, (Setting.heapWords, text) ∈ asked →
        ∃ words, readArenaSize text = .ok words := by
      intro text hmem
      have hcounts : env.textFor asked .heapWords = some text := by
        rw [Environment.textFor, (lookup_eq_some_iff hnodup).mpr hmem]
        rfl
      rw [hcounts, sizeFrom_some] at hsize
      exact ⟨_, hsize⟩
    obtain ⟨given, hrecords⟩ := Given.exists_records hread
    rw [Given.makeAll_start_eq_ok_iff.mpr ⟨hnodup, hrecords⟩]
    show (given.complete env >>= fun options => pure (Request.run options)) = _
    rw [(Given.complete_eq_ok_iff hrecords).mpr ⟨hsize, hfilter⟩]
    rfl

theorem request_eq_ok_of_perm
    (hperm : (os.map Occurrence.asked).Perm (os'.map Occurrence.asked))
    (h : Options.request (argumentsOf os) env = .ok request) :
    Options.request (argumentsOf os') env = .ok request := by
  rw [request_eq_ok_iff] at h ⊢
  obtain ⟨hnodup, hrest⟩ := h
  have htext : ∀ s, env.textFor (os'.map Occurrence.asked) s =
      env.textFor (os.map Occurrence.asked) s := by
    intro s
    rw [Environment.textFor, ← lookup_eq_of_perm hperm hnodup]
    rfl
  rw [htext, htext]
  exact ⟨(hperm.map Prod.fst).nodup hnodup, hrest⟩

theorem request_congr {text : String}
    (hmem : (Setting.heapWords, text) ∈ os.map Occurrence.asked) (hlog : env'.log = env.log) :
    Options.request (argumentsOf os) env' = Options.request (argumentsOf os) env := by
  rw [request_eq, request_eq]
  generalize os.map Occurrence.asked = asked at hmem
  cases hgiven : ({} : Given).makeAll asked with
  | error e => rfl
  | ok given =>
    obtain ⟨hnodup, hrecords⟩ := Given.makeAll_start_eq_ok_iff.mp hgiven
    have hset : given.heapWords ≠ none := by
      intro hnone
      have hsize := hrecords.heapWords_eq
      rw [hnone, (lookup_eq_some_iff hnodup).mpr hmem] at hsize
      contradiction
    show (given.complete env' >>= fun options => pure (Request.run options)) =
      (given.complete env >>= fun options => pure (Request.run options))
    rw [Given.complete_congr hset hlog]

end

/-- **Each setting is what the command line says, else what the environment says, else its default,
whatever the order.**  The environment's size is not looked at where one is asked for. -/
theorem request_whatever_the_order (env : Environment) :
    (∀ os, (∃ request, Options.request (argumentsOf os) env = .ok request) ↔
      ((os.map Occurrence.asked).map Prod.fst).Nodup ∧
        ∀ text, env.textFor (os.map Occurrence.asked) .heapWords = some text →
          ∃ words, readArenaSize text = .ok words) ∧
    (∀ os request, Options.request (argumentsOf os) env = .ok request →
      ∃ options, request = .run options ∧
        SizeFrom (env.textFor (os.map Occurrence.asked) .heapWords) options.heapWords ∧
        options.logFilter = (env.textFor (os.map Occurrence.asked) .log).getD "warn") ∧
    (∀ os os', (os.map Occurrence.asked).Perm (os'.map Occurrence.asked) → ∀ request,
      (Options.request (argumentsOf os) env = .ok request ↔
        Options.request (argumentsOf os') env = .ok request)) ∧
    (∀ os text, (Setting.heapWords, text) ∈ os.map Occurrence.asked → ∀ heapWords,
      Options.request (argumentsOf os) { env with heapWords } =
        Options.request (argumentsOf os) env) ∧
    (∀ arguments options, Options.request arguments env = .ok (.run options) →
      ¬ Heap.RefusesSize options.heapWords) := by
  refine ⟨fun os => ⟨?_, ?_⟩, ?_, ?_, ?_, ?_⟩
  · rintro ⟨request, h⟩
    obtain ⟨hnodup, options, -, hsize, -⟩ := request_eq_ok_iff.mp h
    refine ⟨hnodup, fun text htext => ?_⟩
    rw [htext, sizeFrom_some] at hsize
    exact ⟨_, hsize⟩
  · rintro ⟨hnodup, hread⟩
    have hsize : ∃ words,
        SizeFrom (env.textFor (os.map Occurrence.asked) .heapWords) words := by
      cases htext : env.textFor (os.map Occurrence.asked) .heapWords with
      | none => exact ⟨_, .default⟩
      | some text =>
        obtain ⟨words, hwords⟩ := hread text htext
        exact ⟨words, .text hwords⟩
    obtain ⟨words, hwords⟩ := hsize
    exact ⟨_, request_eq_ok_iff.mpr ⟨hnodup, ⟨words, _⟩, rfl, hwords, rfl⟩⟩
  · intro os request h
    exact (request_eq_ok_iff.mp h).2
  · intro os os' hperm request
    exact ⟨request_eq_ok_of_perm hperm, request_eq_ok_of_perm hperm.symm⟩
  · intro os text hmem heapWords
    exact request_congr hmem rfl
  · intro arguments options h
    rw [Heap.not_refusesSize_iff, ← Arena.checkSize_eq_ok_iff]
    exact Options.checkSize_of_request h

/-- The environment's size is no number, but one is given. -/
theorem request_whatever_the_order_given :
    Options.request ["--log=--x", "--heap-words", "+4096"] ⟨some "lots", some "info"⟩ =
      .ok (.run ⟨4096, "--x"⟩) := by
  obtain ⟨haccepted, hresult, -⟩ := request_whatever_the_order ⟨some "lots", some "info"⟩
  have hsize : readArenaSize "+4096" = .ok 4096 := by decide
  obtain ⟨request, h⟩ :=
    (haccepted [.joined .log "--x", .apart .heapWords "+4096" (.inr (by decide))]).mpr
      ⟨by decide, fun text htext => by cases htext; exact ⟨4096, hsize⟩⟩
  obtain ⟨⟨words, filter⟩, rfl, hwords, hfilter⟩ := hresult _ request h
  cases hsize.symm.trans (sizeFrom_some.mp hwords)
  cases hfilter
  exact h

end TaggedWords
