import TaggedWords.Proofs.Walk.Preorder

/-!
# What a loop with a work stack still has to do

A loop with a work stack takes the uppermost entry.  It passes the entry, or opens it and puts what
is below it in its place, or comes to its end there.  So it opens the nodes of a forest in pre-order,
up to the first entry that stops it.

Meanwhile each entry on the stack is a task: at the path of the entry, the loop has yet to go through
all below it.  The paths of the tasks lie apart, each wholly before the next, and so they do when a
task gives way to those below it.

* `Unfolding`            what is below the entries of a stack, and where the loop stops;
* `Unfolding.NodeAt`     an entry that is opened, with its path and what waits on the stack meanwhile;
* `Unfolding.StopAt`     an entry that stops the loop;
* `Preordered`           visits are those of the nodes in pre-order, up to the first stop;
* `Task`, `Awaits`       what a stack has yet to go through;
* `preorder_of_stops`, `preorder_of_passes`, `preorder_of_opens`   what one round adds.
-/

namespace TaggedWords

variable {α β : Type}

/-! ## paths -/

theorem Path.before_append_cons (p : List Nat) (i : Nat) (q : List Nat) :
    Before p (p ++ i :: q) := by
  have h := List.Lex.append_left (· < ·) (List.Lex.nil (a := i) (l := q)) p
  rw [List.append_nil] at h
  exact h

/-! ## unfoldings -/

structure Unfolding (α : Type) where
  /-- The loop opens the entry, and these are the entries below it. -/
  Opens : α → List α → Prop
  Stops : α → Prop
  /-- What waits on the stack on behalf of an entry, while so many of those below it are to come. -/
  weight : Nat → Nat
  unique : ∀ {a us vs}, Opens a us → Opens a vs → us = vs
  not_stops : ∀ {a us}, Opens a us → ¬ Stops a

/-- An entry that is opened: its path, what waits on the stack meanwhile, and the number of entries
below it. -/
structure Node where
  path : List Nat
  depth : Nat
  length : Nat

def Node.visit (n : Node) : Visit := ⟨n.length, n.depth⟩

namespace Unfolding

/-- The node is below `a`.  Each entry above it adds to its depth, for the entries below that one
which stand to the right of the path. -/
inductive NodeAt (U : Unfolding α) : α → Node → Prop where
  | here {a : α} {us : List α} (opens : U.Opens a us) : NodeAt U a ⟨[], 0, us.length⟩
  | inside {a u : α} {before later : List α} {n : Node} (opens : U.Opens a (before ++ u :: later))
    (inside : NodeAt U u n) :
    NodeAt U a ⟨before.length :: n.path, U.weight later.length + n.depth, n.length⟩

/-- The entry at the path below `a` stops the loop. -/
inductive StopAt (U : Unfolding α) : α → List Nat → Prop where
  | here {a : α} (stops : U.Stops a) : StopAt U a []
  | inside {a u : α} {before later : List α} {path : List Nat}
    (opens : U.Opens a (before ++ u :: later)) (inside : StopAt U u path) :
    StopAt U a (before.length :: path)

end Unfolding

/-- The visits are those of the nodes before the first stop, one of each node and in pre-order. -/
def Preordered (nodeAt : Node → Prop) (stopAt : List Nat → Prop) (visits : List Visit) : Prop :=
  ∃ nodes : List Node, nodes.Pairwise (fun m n => Path.Before m.path n.path) ∧
    (∀ n, n ∈ nodes ↔ nodeAt n ∧ ∀ path, stopAt path → Path.Before n.path path) ∧
    visits = nodes.map Node.visit

/-! ## tasks -/

/-- An entry that waits: its path, and how many others wait behind it. -/
structure Task (α : Type) where
  path : List Nat
  depth : Nat
  entry : α

namespace Task

def node (t : Task α) (n : Node) : Node := ⟨t.path ++ n.path, t.depth + n.depth, n.length⟩

/-- The tasks that take the place of one, for the entries below it from some index on. -/
def below (t : Task α) (weight : Nat → Nat) : Nat → List α → List (Task α)
  | _, [] => []
  | i, u :: later =>
    ⟨t.path ++ [i], t.depth + weight later.length, u⟩ :: below t weight (i + 1) later

/-- All below one task comes before all below another. -/
def Apart (s t : Task α) : Prop := ∀ p q, Path.Before (s.path ++ p) (t.path ++ q)

theorem mem_below_from {t s : Task α} {weight : Nat → Nat} {i : Nat} {us : List α} :
    s ∈ t.below weight i us ↔ ∃ before u later, us = before ++ u :: later ∧
      s = ⟨t.path ++ [i + before.length], t.depth + weight later.length, u⟩ := by
  induction us generalizing i with
  | nil => simp [below]
  | cons u later ih =>
    rw [below, List.mem_cons, ih]
    constructor
    · rintro (rfl | ⟨before, v, later, rfl, rfl⟩)
      · exact ⟨[], u, later, rfl, rfl⟩
      · refine ⟨u :: before, v, later, rfl, ?_⟩
        rw [List.length_cons, Nat.add_right_comm, Nat.add_assoc]
    · rintro ⟨_ | ⟨v, before⟩, x, later', hsplit, rfl⟩
      · cases hsplit
        exact .inl rfl
      · cases hsplit
        refine .inr ⟨before, x, later', rfl, ?_⟩
        rw [List.length_cons, Nat.add_right_comm, Nat.add_assoc]

theorem mem_below {t s : Task α} {weight : Nat → Nat} {us : List α} :
    s ∈ t.below weight 0 us ↔ ∃ before u later, us = before ++ u :: later ∧
      s = ⟨t.path ++ [before.length], t.depth + weight later.length, u⟩ := by
  rw [mem_below_from]
  simp only [Nat.zero_add]

theorem pairwise_below (t : Task α) (weight : Nat → Nat) (i : Nat) (us : List α) :
    (t.below weight i us).Pairwise Apart := by
  induction us generalizing i with
  | nil => exact .nil
  | cons u later ih =>
    rw [below, List.pairwise_cons]
    refine ⟨fun s hs p q => ?_, ih (i + 1)⟩
    obtain ⟨before, v, later, -, rfl⟩ := mem_below_from.mp hs
    rw [List.append_assoc, List.append_assoc]
    exact List.Lex.append_left _ (.rel (by omega)) _

theorem pairwise_below_append {t : Task α} {rest : List (Task α)} (h : (t :: rest).Pairwise Apart)
    (weight : Nat → Nat) (us : List α) : (t.below weight 0 us ++ rest).Pairwise Apart := by
  obtain ⟨htail, hrest⟩ := List.pairwise_cons.mp h
  refine List.pairwise_append.mpr ⟨t.pairwise_below weight 0 us, hrest, fun s hs r hr p q => ?_⟩
  obtain ⟨before, u, later, -, rfl⟩ := mem_below.mp hs
  rw [List.append_assoc]
  exact htail r hr _ q

theorem before_of_mem {t s : Task α} {rest : List (Task α)} {weight : Nat → Nat} {us : List α}
    (h : (t :: rest).Pairwise Apart) (hs : s ∈ t.below weight 0 us ++ rest) (p : List Nat) :
    Path.Before t.path (s.path ++ p) := by
  obtain hs | hs := List.mem_append.mp hs
  · obtain ⟨before, u, later, -, rfl⟩ := mem_below.mp hs
    rw [List.append_assoc]
    exact Path.before_append_cons _ _ _
  · have hbefore := List.rel_of_pairwise_cons h hs [] p
    rw [List.append_nil] at hbefore
    exact hbefore

theorem node_whole (a : α) (n : Node) : node ⟨[], 0, a⟩ n = n := by
  rw [node, List.nil_append, Nat.zero_add]

theorem node_below (t : Task α) (i depth : Nat) (u : α) (n : Node) :
    node ⟨t.path ++ [i], t.depth + depth, u⟩ n =
      t.node ⟨i :: n.path, depth + n.depth, n.length⟩ := by
  rw [node, node, List.append_assoc, List.singleton_append, Nat.add_assoc]

end Task

/-- A stack holds the tasks, and besides them only what is no entry of the unfolding. -/
inductive Awaits (entryOf : β → Option α) : List β → List (Task α) → Prop where
  | nil : Awaits entryOf [] []
  | pass {b : β} {rest : List β} {tasks : List (Task α)} (other : entryOf b = none)
    (tail : Awaits entryOf rest tasks) : Awaits entryOf (b :: rest) tasks
  | task {b : β} {rest : List β} {t : Task α} {tasks : List (Task α)}
    (entry : entryOf b = some t.entry) (depth : t.depth = rest.length)
    (tail : Awaits entryOf rest tasks) : Awaits entryOf (b :: rest) (t :: tasks)

namespace Awaits

variable {entryOf : β → Option α} {a : α} {b : β} {rest : List β} {tasks : List (Task α)}

theorem of_none (h : Awaits entryOf (b :: rest) tasks) (other : entryOf b = none) :
    Awaits entryOf rest tasks := by
  cases h with
  | pass _ tail => exact tail
  | task entry => cases other.symm.trans entry

theorem exists_task (h : Awaits entryOf (b :: rest) tasks) (entry : entryOf b = some a) :
    ∃ path tasks', tasks = ⟨path, rest.length, a⟩ :: tasks' ∧ Awaits entryOf rest tasks' := by
  cases h with
  | pass other _ => cases other.symm.trans entry
  | @task _ _ t tasks' entry' depth tail =>
    obtain ⟨path, k, x⟩ := t
    cases entry.symm.trans entry'
    cases depth
    exact ⟨path, tasks', rfl, tail⟩

end Awaits

/-! ## what one round adds -/

namespace Unfolding

variable {U : Unfolding α} {t : Task α} {us : List α} {rest : List (Task α)} {n : Node}
  {path : List Nat} {visits : List Visit}

def NodeIn (U : Unfolding α) (tasks : List (Task α)) (n : Node) : Prop :=
  ∃ t ∈ tasks, ∃ m, U.NodeAt t.entry m ∧ n = t.node m

def StopIn (U : Unfolding α) (tasks : List (Task α)) (path : List Nat) : Prop :=
  ∃ t ∈ tasks, ∃ p, U.StopAt t.entry p ∧ path = t.path ++ p

def Preorder (U : Unfolding α) (tasks : List (Task α)) (visits : List Visit) : Prop :=
  Preordered (U.NodeIn tasks) (U.StopIn tasks) visits

theorem preorder_whole {a : α} : U.Preorder [⟨[], 0, a⟩] visits ↔
    Preordered (U.NodeAt a) (U.StopAt a) visits := by
  have hnode : U.NodeIn [⟨[], 0, a⟩] = U.NodeAt a := by
    funext n
    refine propext ⟨?_, fun hn => ⟨_, List.mem_cons_self, n, hn, (Task.node_whole a n).symm⟩⟩
    rintro ⟨t, ht, m, hm, rfl⟩
    obtain rfl := List.mem_singleton.mp ht
    rw [Task.node_whole]
    exact hm
  have hstop : U.StopIn [⟨[], 0, a⟩] = U.StopAt a := by
    funext path
    refine propext ⟨?_, fun hp => ⟨_, List.mem_cons_self, path, hp, rfl⟩⟩
    rintro ⟨t, ht, p, hp, rfl⟩
    obtain rfl := List.mem_singleton.mp ht
    exact hp
  rw [Preorder, hnode, hstop]

theorem preorder_nil : U.Preorder [] [] := by
  refine ⟨[], .nil, fun n => iff_of_false List.not_mem_nil ?_, rfl⟩
  rintro ⟨⟨t, ht, -⟩, -⟩
  exact absurd ht List.not_mem_nil

theorem nodeIn_of_not_opens (hopens : ∀ us, ¬ U.Opens t.entry us) :
    U.NodeIn (t :: rest) n ↔ U.NodeIn rest n := by
  constructor
  · rintro ⟨s, hs, m, hm, rfl⟩
    obtain rfl | hs := List.mem_cons.mp hs
    · cases hm with
      | here opens => exact absurd opens (hopens _)
      | inside opens _ => exact absurd opens (hopens _)
    · exact ⟨s, hs, m, hm, rfl⟩
  · rintro ⟨s, hs, hm⟩
    exact ⟨s, List.mem_cons_of_mem _ hs, hm⟩

theorem stopIn_of_not_opens (hopens : ∀ us, ¬ U.Opens t.entry us) (hstops : ¬ U.Stops t.entry) :
    U.StopIn (t :: rest) path ↔ U.StopIn rest path := by
  constructor
  · rintro ⟨s, hs, p, hp, rfl⟩
    obtain rfl | hs := List.mem_cons.mp hs
    · cases hp with
      | here stops => exact absurd stops hstops
      | inside opens _ => exact absurd opens (hopens _)
    · exact ⟨s, hs, p, hp, rfl⟩
  · rintro ⟨s, hs, hp⟩
    exact ⟨s, List.mem_cons_of_mem _ hs, hp⟩

theorem preorder_of_stops (stops : U.Stops t.entry) (hapart : (t :: rest).Pairwise Task.Apart) :
    U.Preorder (t :: rest) [] := by
  have hopens : ∀ us, ¬ U.Opens t.entry us := fun us opens => U.not_stops opens stops
  refine ⟨[], .nil, fun n => iff_of_false List.not_mem_nil ?_, rfl⟩
  rintro ⟨hn, hbefore⟩
  obtain ⟨s, hs, m, -, rfl⟩ := (nodeIn_of_not_opens hopens).mp hn
  -- the nodes that are left come after the stop
  have hafter := List.rel_of_pairwise_cons hapart hs [] m.path
  exact absurd (hbefore _ ⟨t, List.mem_cons_self, [], .here stops, rfl⟩) (asymm hafter)

theorem preorder_of_passes (hopens : ∀ us, ¬ U.Opens t.entry us) (hstops : ¬ U.Stops t.entry)
    (h : U.Preorder rest visits) : U.Preorder (t :: rest) visits := by
  obtain ⟨nodes, hsorted, hmem, rfl⟩ := h
  refine ⟨nodes, hsorted, fun n => ?_, rfl⟩
  rw [hmem, nodeIn_of_not_opens hopens]
  simp only [stopIn_of_not_opens hopens hstops]

theorem nodeIn_of_opens (opens : U.Opens t.entry us) : U.NodeIn (t :: rest) n ↔
    n = ⟨t.path, t.depth, us.length⟩ ∨ U.NodeIn (t.below U.weight 0 us ++ rest) n := by
  constructor
  · rintro ⟨s, hs, m, hm, rfl⟩
    obtain rfl | hs := List.mem_cons.mp hs
    · cases hm with
      | here opens' =>
        obtain rfl := U.unique opens opens'
        exact .inl (by rw [Task.node, List.append_nil, Nat.add_zero])
      | @inside _ u before later m opens' inside =>
        obtain rfl := U.unique opens opens'
        refine .inr ⟨_, List.mem_append_left _ (Task.mem_below.mpr ⟨before, u, later, rfl, rfl⟩), m,
          inside, ?_⟩
        rw [Task.node_below]
    · exact .inr ⟨s, List.mem_append_right _ hs, m, hm, rfl⟩
  · rintro (rfl | ⟨s, hs, m, hm, rfl⟩)
    · refine ⟨t, List.mem_cons_self, _, .here opens, ?_⟩
      rw [Task.node, List.append_nil, Nat.add_zero]
    · obtain hs | hs := List.mem_append.mp hs
      · obtain ⟨before, u, later, rfl, rfl⟩ := Task.mem_below.mp hs
        refine ⟨t, List.mem_cons_self, _, .inside opens hm, ?_⟩
        rw [Task.node_below]
      · exact ⟨s, List.mem_cons_of_mem _ hs, m, hm, rfl⟩

theorem stopIn_of_opens (opens : U.Opens t.entry us) :
    U.StopIn (t :: rest) path ↔ U.StopIn (t.below U.weight 0 us ++ rest) path := by
  constructor
  · rintro ⟨s, hs, p, hp, rfl⟩
    obtain rfl | hs := List.mem_cons.mp hs
    · cases hp with
      | here stops => exact absurd stops (U.not_stops opens)
      | @inside _ u before later p opens' inside =>
        obtain rfl := U.unique opens opens'
        refine ⟨_, List.mem_append_left _ (Task.mem_below.mpr ⟨before, u, later, rfl, rfl⟩), p,
          inside, ?_⟩
        rw [List.append_assoc, List.singleton_append]
    · exact ⟨s, List.mem_append_right _ hs, p, hp, rfl⟩
  · rintro ⟨s, hs, p, hp, rfl⟩
    obtain hs | hs := List.mem_append.mp hs
    · obtain ⟨before, u, later, rfl, rfl⟩ := Task.mem_below.mp hs
      refine ⟨t, List.mem_cons_self, _, .inside opens hp, ?_⟩
      rw [List.append_assoc, List.singleton_append]
    · exact ⟨s, List.mem_cons_of_mem _ hs, p, hp, rfl⟩

theorem preorder_of_opens (opens : U.Opens t.entry us) (hapart : (t :: rest).Pairwise Task.Apart)
    (h : U.Preorder (t.below U.weight 0 us ++ rest) visits) :
    U.Preorder (t :: rest) (⟨us.length, t.depth⟩ :: visits) := by
  obtain ⟨nodes, hsorted, hmem, rfl⟩ := h
  refine ⟨⟨t.path, t.depth, us.length⟩ :: nodes, List.pairwise_cons.mpr ⟨fun m hm => ?_, hsorted⟩,
    fun n => ?_, rfl⟩
  · obtain ⟨⟨s, hs, m, -, rfl⟩, -⟩ := (hmem m).mp hm
    exact Task.before_of_mem hapart hs m.path
  · rw [List.mem_cons, hmem, nodeIn_of_opens opens]
    simp only [stopIn_of_opens opens]
    constructor
    · rintro (rfl | ⟨hn, hbefore⟩)
      · refine ⟨.inl rfl, ?_⟩
        rintro _ ⟨s, hs, p, -, rfl⟩
        exact Task.before_of_mem hapart hs p
      · exact ⟨.inr hn, hbefore⟩
    · rintro ⟨rfl | hn, hbefore⟩
      · exact .inl rfl
      · exact .inr ⟨hn, hbefore⟩

end Unfolding

end TaggedWords
