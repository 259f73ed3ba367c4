/-!
# Running computations

The equations of computations with a state, and of those that may stop besides, when they are run
from a state. What such a computation does is then read off by rewriting.

* `Stoppable.Parallel` relates two computations that end alike from related states.
-/

namespace TreeScript

variable {σ ε α β : Type}

/-! ## 1. Computations with a state -/

namespace Stateful

theorem pure_apply (a : α) (s : σ) : (pure a : StateM σ α) s = (a, s) := rfl

theorem bind_apply (x : StateM σ α) (f : α → StateM σ β) (s : σ) :
    (x >>= f) s = f (x s).1 (x s).2 := rfl

theorem get_apply (s : σ) : (get : StateM σ σ) s = (s, s) := rfl

theorem forM_cons_apply (x : α) (xs : List α) (f : α → StateM σ Unit) (s : σ) :
    (x :: xs).forM f s = xs.forM f (f x s).2 := rfl

end Stateful

/-! ## 2. Computations that may stop -/

namespace Stoppable

theorem run_bind (x : ExceptT ε (StateM σ) α) (f : α → ExceptT ε (StateM σ) β) (s : σ) :
    (x >>= f).run s =
      match x.run s with
      | (.ok a, s') => (f a).run s'
      | (.error fault, s') => (.error fault, s') := by
  change (match x.run s with | (a, s') => ExceptT.bindCont f a s') = _
  rcases x.run s with ⟨_ | _, _⟩ <;> rfl

theorem run_get (s : σ) : ExceptT.run (get : ExceptT ε (StateM σ) σ) s = (.ok s, s) := rfl

theorem run_liftM (x : StateM σ α) (s : σ) :
    ExceptT.run (liftM x : ExceptT ε (StateM σ) α) s = (.ok (x s).1, (x s).2) := rfl

theorem run_lift (x : StateM σ α) (s : σ) :
    ExceptT.run (ExceptT.lift x : ExceptT ε (StateM σ) α) s = (.ok (x s).1, (x s).2) := rfl

theorem discard_eq (x : ExceptT ε (StateM σ) α) :
    (discard x : ExceptT ε (StateM σ) Unit) = do let _ ← x; return () :=
  map_eq_pure_bind (fun _ => ()) x

/-- Two ends of computations: the same result, and related states. -/
structure Matches (R : σ → σ → Prop) (first second : Except ε α × σ) : Prop where
  result : first.1 = second.1
  state : R first.2 second.2

/-- Computations that end alike from related states. -/
def Parallel (R : σ → σ → Prop) (x y : ExceptT ε (StateM σ) α) : Prop :=
  ∀ s s', R s s' → Matches R (x.run s) (y.run s')

variable {R : σ → σ → Prop}

theorem parallel_pure (a : α) :
    Parallel R (pure a : ExceptT ε (StateM σ) α) (pure a) :=
  fun _ _ hs => ⟨rfl, hs⟩

theorem Parallel.bind {x y : ExceptT ε (StateM σ) α} {f g : α → ExceptT ε (StateM σ) β}
    (h : Parallel R x y) (hnext : ∀ a, Parallel R (f a) (g a)) :
    Parallel R (x >>= f) (y >>= g) := by
  intro s s' hs
  have hends := h s s' hs
  rw [run_bind, run_bind]
  generalize x.run s = first, y.run s' = second at hends ⊢
  obtain ⟨result, t⟩ := first
  obtain ⟨result', t'⟩ := second
  obtain ⟨rfl, hstate⟩ : result = result' ∧ R t t' := ⟨hends.result, hends.state⟩
  cases result with
  | error fault => exact ⟨rfl, hstate⟩
  | ok a => exact hnext a t t' hstate

theorem Parallel.forM {f : α → ExceptT ε (StateM σ) Unit} (h : ∀ a, Parallel R (f a) (f a))
    (xs : List α) : Parallel R (xs.forM f) (xs.forM f) := by
  induction xs with
  | nil => exact parallel_pure ()
  | cons x xs ih => exact (h x).bind fun _ => ih

/-- What stands behind one and the same beginning decides whether computations match. -/
theorem matches_bind_of_same (hrefl : ∀ s, R s s) {f g : α → ExceptT ε (StateM σ) β}
    (h : ∀ a s, Matches R ((f a).run s) ((g a).run s)) (x : ExceptT ε (StateM σ) α) (s : σ) :
    Matches R ((x >>= f).run s) ((x >>= g).run s) := by
  rw [run_bind, run_bind]
  rcases x.run s with ⟨fault | a, t⟩
  · exact ⟨rfl, hrefl t⟩
  · exact h a t

end Stoppable

/-! ## 3. Computations that may fail -/

namespace Fallible

theorem bind_eq_ok {x : Except ε α} {f : α → Except ε β} {b : β} :
    x >>= f = .ok b ↔ ∃ a, x = .ok a ∧ f a = .ok b := by
  constructor
  · intro h
    cases x with
    | error error => cases h
    | ok a => exact ⟨a, rfl, h⟩
  · rintro ⟨a, rfl, h⟩
    exact h

/-- What stands behind a check is done if the check passes. -/
theorem check_bind_eq_ok {x : Except ε Unit} {f : Unit → Except ε β} {b : β} :
    x >>= f = .ok b ↔ x = .ok () ∧ f () = .ok b := by
  rw [bind_eq_ok]
  constructor
  · rintro ⟨⟨⟩, h⟩
    exact h
  · intro h
    exact ⟨(), h⟩

theorem eq_ok_of_toOption {x : Except ε α} {a : α} (h : x.toOption = some a) : x = .ok a := by
  cases x with
  | error error => cases h
  | ok a' => rw [Option.some.inj h]

/-- The error of a failure. -/
def failure? : Except ε α → Option ε
  | .error error => some error
  | .ok _ => none

theorem eq_error_of_failure? {x : Except ε α} {error : ε} (h : failure? x = some error) :
    x = .error error := by
  cases x with
  | error error' => rw [Option.some.inj h]
  | ok a => cases h

theorem pure_eq_ok {a b : α} : (pure a : Except ε α) = .ok b ↔ a = b :=
  ⟨fun h => Except.ok.inj h, congrArg Except.ok⟩

theorem map_eq_ok {x : Except ε α} {f : α → β} {b : β} :
    x.map f = .ok b ↔ ∃ a, x = .ok a ∧ f a = b := by
  cases x with
  | error error => simp [Except.map]
  | ok a => simp [Except.map]

/-- A list is gone through to its end just when nothing fails on the way. -/
theorem forM_eq_ok {xs : List α} {f : α → Except ε Unit} :
    xs.forM f = .ok () ↔ ∀ x ∈ xs, f x = .ok () := by
  induction xs with
  | nil => simp [List.forM, pure_eq_ok]
  | cons x xs ih =>
    change (f x >>= fun _ => xs.forM f) = _ ↔ _
    rw [check_bind_eq_ok, List.forall_mem_cons, ← ih]

theorem exists_mapM_eq_ok {xs : List α} {f : α → Except ε β} :
    (∃ ys, xs.mapM f = .ok ys) ↔ ∀ x ∈ xs, ∃ y, f x = .ok y := by
  induction xs with
  | nil => simp [pure_eq_ok]
  | cons x xs ih =>
    simp only [List.mapM_cons, bind_eq_ok, pure_eq_ok, List.forall_mem_cons, ← ih]
    constructor
    · rintro ⟨_, y, hy, ys, hys, rfl⟩
      exact ⟨⟨y, hy⟩, ys, hys⟩
    · rintro ⟨⟨y, hy⟩, ys, hys⟩
      exact ⟨y :: ys, y, hy, ys, hys, rfl⟩

theorem mem_of_mapM_eq_ok {xs : List α} {ys : List β} {f : α → Except ε β}
    (h : xs.mapM f = .ok ys) (y : β) : y ∈ ys ↔ ∃ x ∈ xs, f x = .ok y := by
  induction xs generalizing ys with
  | nil =>
    cases pure_eq_ok.1 h
    simp
  | cons x xs ih =>
    simp only [List.mapM_cons, bind_eq_ok, pure_eq_ok] at h
    obtain ⟨first, hfirst, rest, hrest, rfl⟩ := h
    simp [ih hrest, hfirst, eq_comm]

end Fallible

end TreeScript
