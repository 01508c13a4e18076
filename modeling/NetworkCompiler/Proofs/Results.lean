import Mathlib.Data.List.Forall2
import NetworkCompiler.Failure
import NetworkCompiler.Report.Event

/-!
# Taking results apart

A computation that succeeded did so at every step. `bind_eq_ok` and `mapM_eq_ok` say this of
results, `result_bind_eq_ok` and `result_mapM_eq_ok` of traced ones, so that a run can be taken
apart from its answer alone. The errors of a step keep their kind : `ofTopology_eq_ok` and its
siblings forget how an error is wrapped once there is none.
-/

namespace NetworkCompiler

variable {ε ε' α β γ : Type}

/-! ## Results -/

theorem bind_eq_ok {x : Except ε α} {f : α → Except ε β} {b : β} :
    (x >>= f) = .ok b ↔ ∃ a, x = .ok a ∧ f a = .ok b := by
  cases x with
  | error e => simp [bind, Except.bind]
  | ok a => simp [bind, Except.bind]

theorem bind_eq_error {x : Except ε α} {f : α → Except ε β} {e : ε} :
    (x >>= f) = .error e ↔ x = .error e ∨ ∃ a, x = .ok a ∧ f a = .error e := by
  cases x with
  | error e => simp [bind, Except.bind]
  | ok a => simp [bind, Except.bind]

theorem pure_ne_error {a : α} {e : ε} : (pure a : Except ε α) ≠ .error e := nofun

theorem map_eq_ok {x : Except ε α} {f : α → β} {b : β} :
    x.map f = .ok b ↔ ∃ a, x = .ok a ∧ f a = b := by
  cases x <;> simp [Except.map]

theorem mapError_eq_ok {x : Except ε α} {f : ε → ε'} {a : α} :
    x.mapError f = .ok a ↔ x = .ok a := by
  cases x <;> simp [Except.mapError]

theorem mapError_eq_error {x : Except ε α} {f : ε → ε'} {e : ε'} :
    x.mapError f = .error e ↔ ∃ e', x = .error e' ∧ f e' = e := by
  cases x <;> simp [Except.mapError]

theorem ofInput_eq_ok {x : Except InputError α} {a : α} : ofInput x = .ok a ↔ x = .ok a :=
  mapError_eq_ok

theorem ofTopology_eq_ok {x : Except TopologyError α} {a : α} :
    ofTopology x = .ok a ↔ x = .ok a :=
  mapError_eq_ok

theorem ofInput_ne_topology {x : Except InputError α} {e : TopologyError} :
    ofInput x ≠ .error (.topology e) := by
  cases x <;> nofun

theorem exists_of_ofTopology_eq_error {x : Except TopologyError α} {e : Failure}
    (h : ofTopology x = .error e) : ∃ f, e = .topology f := by
  obtain ⟨f, -, rfl⟩ := mapError_eq_error.mp h
  exact ⟨f, rfl⟩

theorem ofTopology_eq_error {x : Except TopologyError α} {e : TopologyError} :
    ofTopology x = .error (.topology e) ↔ x = .error e := by
  cases x <;> simp [ofTopology, Except.mapError]

/-- The elements of a list are worked on one by one. -/
theorem mapM_eq_ok {f : α → Except ε β} {xs : List α} {ys : List β} :
    xs.mapM f = .ok ys ↔ List.Forall₂ (fun x y => f x = .ok y) xs ys := by
  induction xs generalizing ys with
  | nil =>
    rw [List.mapM_nil, List.forall₂_nil_left_iff]
    exact ⟨fun h => (Except.ok.inj h).symm, fun h => h ▸ rfl⟩
  | cons x xs ih =>
    rw [List.mapM_cons, bind_eq_ok]
    constructor
    · rintro ⟨y, hy, h⟩
      obtain ⟨ys, hys, h⟩ := bind_eq_ok.mp h
      cases h
      exact .cons hy (ih.mp hys)
    · rintro (_ | ⟨hy, hys⟩)
      exact ⟨_, hy, bind_eq_ok.mpr ⟨_, ih.mpr hys, rfl⟩⟩

theorem mapM_eq_some {f : α → Option β} {xs : List α} {ys : List β} :
    xs.mapM f = some ys ↔ List.Forall₂ (fun x y => f x = some y) xs ys := by
  induction xs generalizing ys with
  | nil =>
    rw [List.mapM_nil, List.forall₂_nil_left_iff]
    exact ⟨fun h => (Option.some.inj h).symm, fun h => h ▸ rfl⟩
  | cons x xs ih =>
    rw [List.mapM_cons, Option.bind_eq_bind, Option.bind_eq_some_iff]
    constructor
    · rintro ⟨y, hy, h⟩
      obtain ⟨ys, hys, h⟩ := Option.bind_eq_some_iff.mp h
      cases h
      exact .cons hy (ih.mp hys)
    · rintro (_ | ⟨hy, hys⟩)
      exact ⟨_, hy, Option.bind_eq_some_iff.mpr ⟨_, ih.mpr hys, rfl⟩⟩

theorem exists_of_mapM_eq_error {f : α → Except ε β} {xs : List α} {e : ε}
    (h : xs.mapM f = .error e) : ∃ x ∈ xs, f x = .error e := by
  induction xs with
  | nil => exact absurd h pure_ne_error
  | cons x xs ih =>
    rw [List.mapM_cons] at h
    rcases bind_eq_error.mp h with h | ⟨y, -, h⟩
    · exact ⟨x, List.mem_cons_self, h⟩
    · rcases bind_eq_error.mp h with h | ⟨ys, -, h⟩
      · obtain ⟨z, hz, hfail⟩ := ih h
        exact ⟨z, List.mem_cons_of_mem _ hz, hfail⟩
      · exact absurd h pure_ne_error

theorem forM_eq_ok {f : α → Except ε Unit} {xs : List α} (h : xs.forM f = .ok ()) :
    ∀ x ∈ xs, f x = .ok () := by
  induction xs with
  | nil => simp
  | cons x xs ih =>
    obtain ⟨⟨⟩, hx, h⟩ := bind_eq_ok.mp h
    exact List.forall_mem_cons.mpr ⟨hx, ih h⟩

/-! ## The errors of loops -/

section Errors

variable {P : ε → Prop} {e : ε}

theorem forM_error {f : α → Except ε Unit} {xs : List α}
    (hf : ∀ x ∈ xs, ∀ e, f x = .error e → P e) (h : xs.forM f = .error e) : P e := by
  induction xs with
  | nil => cases h
  | cons x xs ih =>
    change (f x >>= fun _ => xs.forM f) = .error e at h
    rcases bind_eq_error.mp h with h | ⟨-, -, h⟩
    · exact hf x List.mem_cons_self e h
    · exact ih (fun y hy => hf y (List.mem_cons_of_mem _ hy)) h

theorem foldlM_error {f : β → α → Except ε β} {xs : List α} {b : β}
    (hf : ∀ x ∈ xs, ∀ b e, f b x = .error e → P e) (h : xs.foldlM f b = .error e) : P e := by
  induction xs generalizing b with
  | nil => cases h
  | cons x xs ih =>
    rw [List.foldlM_cons] at h
    rcases bind_eq_error.mp h with h | ⟨b', -, h⟩
    · exact hf x List.mem_cons_self b e h
    · exact ih (fun y hy => hf y (List.mem_cons_of_mem _ hy)) h

end Errors

/-! ## Traced results -/

namespace Traced

theorem id_map (t : Traced ε α) : id <$> t = t := by
  obtain ⟨events, result⟩ := t
  cases result <;> simp [Functor.map, bind, ofExcept]

theorem bind_assoc (t : Traced ε α) (f : α → Traced ε β) (g : β → Traced ε γ) :
    t >>= f >>= g = t >>= fun a => f a >>= g := by
  obtain ⟨events, result⟩ := t
  cases result with
  | error e => rfl
  | ok a =>
    simp only [Bind.bind, bind]
    cases (f a).result <;> simp

instance : LawfulMonad (Traced ε) :=
  LawfulMonad.mk' _ id_map (fun a f => by simp [pure, Bind.bind, bind, ofExcept]) bind_assoc

theorem result_bind_eq_ok {t : Traced ε α} {f : α → Traced ε β} {b : β} :
    (t >>= f).result = .ok b ↔ ∃ a, t.result = .ok a ∧ (f a).result = .ok b := by
  rw [result_bind, bind_eq_ok]

theorem result_bind_eq_error {t : Traced ε α} {f : α → Traced ε β} {e : ε} :
    (t >>= f).result = .error e ↔
      t.result = .error e ∨ ∃ a, t.result = .ok a ∧ (f a).result = .error e := by
  rw [result_bind, bind_eq_error]

theorem result_mapError_eq_ok {t : Traced ε α} {f : ε → ε'} {a : α} :
    (t.mapError f).result = .ok a ↔ t.result = .ok a :=
  mapError_eq_ok

theorem result_mapM (f : α → Traced ε β) (xs : List α) :
    (xs.mapM f).result = xs.mapM fun x => (f x).result := by
  induction xs with
  | nil => rw [List.mapM_nil, List.mapM_nil, result_pure]; rfl
  | cons x xs ih =>
    rw [List.mapM_cons, List.mapM_cons, result_bind]
    congr 1
    funext y
    rw [result_bind, ih]
    rfl

theorem result_mapM_eq_ok {f : α → Traced ε β} {xs : List α} {ys : List β} :
    (xs.mapM f).result = .ok ys ↔ List.Forall₂ (fun x y => (f x).result = .ok y) xs ys := by
  rw [result_mapM, mapM_eq_ok]

end Traced

end NetworkCompiler
