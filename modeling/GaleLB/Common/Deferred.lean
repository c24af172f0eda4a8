import Mathlib.Logic.Basic
import Mathlib.Data.List.Basic
import Mathlib.Tactic.TypeStar

/-!
# Function bodies with deferred calls

A function body calls a library, which answers each call in any way it likes; the answers may
depend on all the calls before. Some answers hand something out that has to be closed by a
further call. A body defers calls, and when it ends, whether by an error or not, the deferred
calls are made in reverse order.

A body is tidy if it closes nothing itself and defers the closing call of whatever it is handed
out. Bodies that are composed of tidy parts are tidy, and a function with a tidy body makes,
after its own calls, exactly the closing calls that these owe, the most recent one first. If a
closing call that is done undoes what it closes, and all of them are done, the function leaves
no trace.
-/

namespace Deferred

variable {C : Type*}

/-- A call with its answer. -/
abbrev Answered (A : C → Type*) := Sigma A

/-- How the library answers a call after the calls before it. -/
abbrev Responder (A : C → Type*) := List (Answered A) → ∀ c, A c

/-- A call in progress: the library calls so far and the deferred calls, the most recent one first. -/
structure Activation (A : C → Type*) where
  trace : List (Answered A)
  deferred : List C

/-- A function body that may fail. -/
def Body (A : C → Type*) (ε α : Type*) := Responder A → Activation A → Except ε α × Activation A

universe u

variable {A : C → Type*} {ε : Type*} {α β : Type u}

/-- A body that only returns a value. -/
def Body.pure (a : α) : Body A ε α := fun _ f => (.ok a, f)

/-- One body after another, unless the first one fails. -/
def Body.bind (x : Body A ε α) (g : α → Body A ε β) : Body A ε β := fun answer f =>
  match x answer f with
  | (.ok a, f') => g a answer f'
  | (.error err, f') => (.error err, f')

instance instMonadBody : Monad (Body A ε) where
  pure := Body.pure
  bind := Body.bind

/-- A check without a library call. -/
def check (result : Except ε α) : Body A ε α := fun _ f => (result, f)

/-- A library call, with what the body makes of its answer. -/
def ask (c : C) (read : A c → Except ε α) : Body A ε α := fun answer f =>
  (read (answer f.trace c), { f with trace := f.trace ++ [⟨c, answer f.trace c⟩] })

/-- A library call whose result is closed by a deferred call. -/
def acquire (c : C) (read : A c → Except ε α) (close : α → C) : Body A ε α := fun answer f =>
  match read (answer f.trace c) with
  | .ok a => (.ok a, ⟨f.trace ++ [⟨c, answer f.trace c⟩], close a :: f.deferred⟩)
  | .error err => (.error err, { f with trace := f.trace ++ [⟨c, answer f.trace c⟩] })

/-- Make the deferred calls. -/
def unwind (answer : Responder A) : List C → List (Answered A) → List (Answered A)
  | [], trace => trace
  | c :: rest, trace => unwind answer rest (trace ++ [⟨c, answer trace c⟩])

/-- Call a function: its body and then the deferred calls. -/
def call (body : Body A ε α) (answer : Responder A) (before : List (Answered A)) :
    Except ε α × List (Answered A) :=
  let activation := (body answer ⟨before, []⟩).2
  ((body answer ⟨before, []⟩).1, unwind answer activation.deferred activation.trace)

/-- The deferred calls are made in their order. -/
theorem exists_unwind (answer : Responder A) (deferred : List C) (trace : List (Answered A)) :
    ∃ closing, unwind answer deferred trace = trace ++ closing ∧ closing.map Sigma.fst = deferred := by
  induction deferred generalizing trace with
  | nil => exact ⟨[], (List.append_nil _).symm, rfl⟩
  | cons c rest ih =>
    obtain ⟨closing, hunwind, hcalls⟩ := ih (trace ++ [⟨c, answer trace c⟩])
    refine ⟨⟨c, answer trace c⟩ :: closing, ?_, by rw [List.map_cons, hcalls]⟩
    rw [unwind, hunwind, List.append_assoc, List.singleton_append]

/-- What a library hands out: the closing call that an answer owes, and which calls close something. -/
structure Discipline (A : C → Type*) where
  owed : Answered A → Option C
  closes : C → Bool

variable (d : Discipline A)

/-- The body makes no closing call itself, and defers those that its own calls owe. -/
def Tidy (body : Body A ε α) : Prop :=
  ∀ answer f, ∃ own, (body answer f).2.trace = f.trace ++ own ∧ (∀ e ∈ own, d.closes e.1 = false) ∧
    (body answer f).2.deferred = (own.filterMap d.owed).reverse ++ f.deferred

/-- The calls of a function with a tidy body: its own calls and then the closing calls that these owe. -/
structure Closed (own closing : List (Answered A)) : Prop where
  opening : ∀ e ∈ own, d.closes e.1 = false
  reversed : closing.map Sigma.fst = (own.filterMap d.owed).reverse

variable {d}

/-- A check is tidy. -/
theorem tidy_check (result : Except ε α) : Tidy d (check result : Body A ε α) :=
  fun _ _ => ⟨[], (List.append_nil _).symm, List.forall_mem_nil _, rfl⟩

/-- Returning a value is tidy. -/
theorem tidy_pure (a : α) : Tidy d (pure a : Body A ε α) := tidy_check (.ok a)

/-- A call that owes nothing is tidy. -/
theorem tidy_ask {c : C} (hcloses : d.closes c = false) (howed : ∀ a, d.owed ⟨c, a⟩ = none)
    (read : A c → Except ε α) : Tidy d (ask c read) := by
  intro answer f
  refine ⟨[⟨c, answer f.trace c⟩], rfl, List.forall_mem_singleton.mpr hcloses, ?_⟩
  rw [List.filterMap_cons_none (howed _)]
  rfl

/-- A call is tidy if the deferred call is the one that it owes. -/
theorem tidy_acquire {c : C} {read : A c → Except ε α} {close : α → C} (hcloses : d.closes c = false)
    (hok : ∀ answer a, read answer = .ok a → d.owed ⟨c, answer⟩ = some (close a))
    (herror : ∀ answer err, read answer = .error err → d.owed ⟨c, answer⟩ = none) :
    Tidy d (acquire c read close) := by
  intro answer f
  refine ⟨[⟨c, answer f.trace c⟩], ?_, List.forall_mem_singleton.mpr hcloses, ?_⟩
  · unfold acquire
    split <;> rfl
  · unfold acquire
    split
    case h_1 a hread =>
      rw [List.filterMap_cons_some (hok _ a hread)]
      rfl
    case h_2 err hread =>
      rw [List.filterMap_cons_none (herror _ err hread)]
      rfl

/-- Tidy bodies are tidy one after another. -/
theorem Tidy.bind {x : Body A ε α} {g : α → Body A ε β} (hx : Tidy d x) (hg : ∀ a, Tidy d (g a)) :
    Tidy d (x >>= g) := by
  intro answer f
  obtain ⟨own, htrace, hown, hdeferred⟩ := hx answer f
  change ∃ own, (Body.bind x g answer f).2.trace = _ ∧ _ ∧ (Body.bind x g answer f).2.deferred = _
  unfold Body.bind
  cases hfirst : x answer f with
  | mk result f' =>
    rw [hfirst] at htrace hdeferred
    cases result with
    | error err => exact ⟨own, htrace, hown, hdeferred⟩
    | ok a =>
      obtain ⟨own', htrace', hown', hdeferred'⟩ := hg a answer f'
      refine ⟨own ++ own', ?_, List.forall_mem_append.mpr ⟨hown, hown'⟩, ?_⟩
      · rw [htrace', htrace, List.append_assoc]
      · rw [hdeferred', hdeferred, List.filterMap_append, List.reverse_append, List.append_assoc]

/-- A function with a tidy body makes its own calls and then the closing calls that these owe. -/
theorem Tidy.call {body : Body A ε α} (h : Tidy d body) (answer : Responder A) (before : List (Answered A)) :
    ∃ own closing, (Deferred.call body answer before).2 = before ++ own ++ closing ∧ Closed d own closing := by
  obtain ⟨own, htrace, hown, hdeferred⟩ := h answer ⟨before, []⟩
  obtain ⟨closing, hunwind, hcalls⟩ := exists_unwind answer (body answer ⟨before, []⟩).2.deferred
    (body answer ⟨before, []⟩).2.trace
  refine ⟨own, closing, ?_, hown, ?_⟩
  · exact hunwind.trans (congrArg (· ++ closing) htrace)
  · rw [hcalls, hdeferred, List.append_nil]

/-- The effect of calls on a state: a call that neither hands anything out nor closes anything leaves the state
alone, and a closing call that is done undoes what was handed out. -/
structure UndoneByClosing {σ : Type*} (d : Discipline A) (done : Answered A → Prop) (effect : σ → Answered A → σ) :
    Prop where
  quiet : ∀ s e, d.owed e = none → d.closes e.1 = false → effect s e = s
  undo : ∀ s e c a, d.owed e = some c → done ⟨c, a⟩ → effect (effect s e) ⟨c, a⟩ = s

/-- Calls that are closed leave the state as it was, if the closing calls are done and undo. -/
theorem Closed.foldl_eq {σ : Type*} {done : Answered A → Prop} {effect : σ → Answered A → σ}
    (heffect : UndoneByClosing d done effect) {own closing : List (Answered A)} (h : Closed d own closing)
    (hdone : ∀ e ∈ closing, done e) (s : σ) : (own ++ closing).foldl effect s = s := by
  obtain ⟨hown, hclosing⟩ := h
  induction own generalizing closing s with
  | nil =>
    rw [List.map_eq_nil_iff.mp hclosing]
    rfl
  | cons e rest ih =>
    obtain ⟨hfirst, hrest⟩ := List.forall_mem_cons.mp hown
    cases howed : d.owed e with
    | none =>
      rw [List.filterMap_cons_none howed] at hclosing
      rw [List.cons_append, List.foldl_cons, heffect.quiet s e howed hfirst]
      exact ih hdone s hrest hclosing
    | some c =>
      -- What was handed out first is closed last.
      rw [List.filterMap_cons_some howed, List.reverse_cons] at hclosing
      obtain ⟨closing, last, rfl, hothers, hlast⟩ := List.map_eq_append_iff.mp hclosing
      obtain ⟨⟨c', a⟩, rfl, rfl⟩ := List.map_eq_singleton_iff.mp hlast
      rw [List.forall_mem_append] at hdone
      rw [List.cons_append, List.foldl_cons, ← List.append_assoc, List.foldl_append, ih hdone.1 _ hrest hothers]
      exact heffect.undo s e _ a howed (hdone.2 _ List.mem_cons_self)

section Success

variable {answer : Responder A} {f f'' : Activation A}

/-- Two bodies succeed one after another. -/
theorem bind_eq_ok_iff {x : Body A ε α} {g : α → Body A ε β} {b : β} :
    (x >>= g) answer f = (.ok b, f'') ↔ ∃ a f', x answer f = (.ok a, f') ∧ g a answer f' = (.ok b, f'') := by
  change Body.bind x g answer f = (.ok b, f'') ↔ _
  unfold Body.bind
  cases hfirst : x answer f with
  | mk result f' =>
    cases result with
    | ok a =>
      constructor
      · exact fun h => ⟨a, f', rfl, h⟩
      · rintro ⟨a', f'', heq, h⟩
        cases heq
        exact h
    | error err =>
      refine iff_of_false (fun h => by cases h) ?_
      rintro ⟨a, f', heq, -⟩
      cases heq

/-- A check succeeds with its result. -/
theorem check_eq_ok_iff {result : Except ε α} {a : α} :
    (check result : Body A ε α) answer f = (.ok a, f'') ↔ result = .ok a ∧ f'' = f := by
  unfold check
  rw [Prod.mk.injEq, eq_comm (a := f)]

/-- A library call succeeds with what the body makes of its answer. -/
theorem ask_eq_ok_iff {c : C} {read : A c → Except ε α} {a : α} :
    ask c read answer f = (.ok a, f'') ↔
      ∃ reply, read reply = .ok a ∧ reply = answer f.trace c ∧ f'' = ⟨f.trace ++ [⟨c, reply⟩], f.deferred⟩ := by
  unfold ask
  rw [Prod.mk.injEq]
  constructor
  · rintro ⟨hread, rfl⟩
    exact ⟨_, hread, rfl, rfl⟩
  · rintro ⟨_, hread, rfl, rfl⟩
    exact ⟨hread, rfl⟩

/-- What is handed out is closed by a deferred call. -/
theorem acquire_eq_ok_iff {c : C} {read : A c → Except ε α} {close : α → C} {a : α} :
    acquire c read close answer f = (.ok a, f'') ↔
      ∃ reply, read reply = .ok a ∧ reply = answer f.trace c ∧
        f'' = ⟨f.trace ++ [⟨c, reply⟩], close a :: f.deferred⟩ := by
  unfold acquire
  constructor
  · intro h
    split at h
    case h_1 a' hread =>
      cases h
      exact ⟨_, hread, rfl, rfl⟩
    case h_2 => cases h
  · rintro ⟨_, hread, rfl, rfl⟩
    rw [hread]

/-- A call succeeds if its body does, and ends with the deferred calls. -/
theorem call_eq_ok_iff {body : Body A ε α} {before trace : List (Answered A)} {a : α} :
    call body answer before = (.ok a, trace) ↔
      ∃ f', body answer ⟨before, []⟩ = (.ok a, f') ∧ trace = unwind answer f'.deferred f'.trace := by
  unfold call
  rw [Prod.mk.injEq]
  constructor
  · rintro ⟨h, rfl⟩
    exact ⟨(body answer ⟨before, []⟩).2, Prod.ext h rfl, rfl⟩
  · rintro ⟨f', h, rfl⟩
    rw [h]
    exact ⟨rfl, rfl⟩

end Success

end Deferred
