import Mathlib.Data.List.Forall2
import Mathlib.Data.List.Nodup
import Mathlib.Data.List.Pairwise
import Mathlib.Data.List.Perm.Basic

/-!
# Lists side by side

Lists that correspond element by element (`List.Forall₂`) correspond after filtering as well, and
a list of pieces with distinct keys has exactly one piece for a key (`flatMap_of_nodup_key`). A
list that is cut up by key is lost nowhere (`flatMap_filter_perm`).
-/

namespace NetworkCompiler

variable {α β κ : Type}

theorem exists_of_mem_left {R : α → β → Prop} {xs : List α} {ys : List β}
    (h : List.Forall₂ R xs ys) {x : α} (hx : x ∈ xs) : ∃ y ∈ ys, R x y := by
  induction h with
  | nil => cases hx
  | cons hxy _ ih =>
    rcases List.mem_cons.mp hx with rfl | hx
    · exact ⟨_, List.mem_cons_self, hxy⟩
    · obtain ⟨y, hy, hxy⟩ := ih hx
      exact ⟨y, List.mem_cons_of_mem _ hy, hxy⟩

theorem exists_of_mem_right {R : α → β → Prop} {xs : List α} {ys : List β}
    (h : List.Forall₂ R xs ys) {y : β} (hy : y ∈ ys) : ∃ x ∈ xs, R x y :=
  exists_of_mem_left h.flip hy

theorem forall₂_filter {R : α → β → Prop} {p : α → Bool} {q : β → Bool} {xs : List α}
    {ys : List β} (h : List.Forall₂ R xs ys) (hpq : ∀ x y, R x y → p x = q y) :
    List.Forall₂ R (xs.filter p) (ys.filter q) := by
  induction h with
  | nil => exact .nil
  | @cons x y _ _ hxy _ ih =>
    cases hq : q y with
    | true =>
      rw [List.filter_cons_of_pos ((hpq x y hxy).trans hq), List.filter_cons_of_pos hq]
      exact .cons hxy ih
    | false =>
      rw [List.filter_cons_of_neg (by simp [hpq x y hxy, hq]),
        List.filter_cons_of_neg (by simp [hq])]
      exact ih

theorem map_eq_map_of_forall₂ {R : α → β → Prop} {f : α → κ} {g : β → κ} {xs : List α}
    {ys : List β} (h : List.Forall₂ R xs ys) (hfg : ∀ x y, R x y → f x = g y) :
    xs.map f = ys.map g := by
  rw [← List.forall₂_eq_eq_eq, List.forall₂_map_left_iff, List.forall₂_map_right_iff]
  exact h.imp hfg

/-- What is kept of one list comes from the elements of the other that say so. -/
theorem map_filter_of_forall₂ {R : α → β → Prop} {p : β → Bool} {f : β → κ} {g : α → Option κ}
    {xs : List α} {ys : List β} (h : List.Forall₂ R xs ys)
    (hpf : ∀ x y, R x y → g x = if p y then some (f y) else none) :
    (ys.filter p).map f = xs.filterMap g := by
  induction h with
  | nil => rfl
  | @cons x y _ _ hxy _ ih =>
    have hg := hpf x y hxy
    cases hp : p y with
    | true =>
      rw [hp, if_pos rfl] at hg
      rw [List.filter_cons_of_pos hp, List.filterMap_cons_some hg, List.map_cons, ih]
    | false =>
      rw [hp, if_neg (by simp)] at hg
      rw [List.filter_cons_of_neg (by simp [hp]), List.filterMap_cons_none hg, ih]

theorem exists_mem_flatMap {xs : List α} {f : α → List β} {P : β → Prop} :
    (∃ y ∈ xs.flatMap f, P y) ↔ ∃ x ∈ xs, ∃ y ∈ f x, P y := by
  simp only [List.mem_flatMap]
  constructor
  · rintro ⟨y, ⟨x, hx, hy⟩, hP⟩
    exact ⟨x, hx, y, hy, hP⟩
  · rintro ⟨x, hx, y, hy, hP⟩
    exact ⟨y, ⟨x, hx, hy⟩, hP⟩

theorem flatMap_filter {p : α → Bool} {xs : List α} {f : α → List β} :
    (xs.filter p).flatMap f = xs.flatMap fun x => if p x then f x else [] := by
  induction xs with
  | nil => rfl
  | cons x xs ih =>
    rw [List.flatMap_cons, ← ih]
    cases hp : p x with
    | true => rw [List.filter_cons_of_pos hp, List.flatMap_cons, if_pos rfl]
    | false => rw [List.filter_cons_of_neg (by simp [hp]), if_neg (by simp), List.nil_append]

/-- Of the pieces of a list with distinct keys only the one of a key is left. -/
theorem flatMap_of_nodup_key [DecidableEq κ] {xs : List α} {key : α → κ} {f : α → List β}
    (hnd : (xs.map key).Nodup) {x : α} (hx : x ∈ xs) :
    (xs.flatMap fun y => if key y = key x then f y else []) = f x := by
  induction xs with
  | nil => cases hx
  | cons y ys ih =>
    obtain ⟨hy, hnd⟩ := List.nodup_cons.mp hnd
    rw [List.flatMap_cons]
    rcases List.mem_cons.mp hx with rfl | hx
    · rw [if_pos rfl, List.flatMap_eq_nil_iff.mpr, List.append_nil]
      intro z hz
      exact if_neg fun h : key z = key x => hy (h ▸ List.mem_map_of_mem hz)
    · have hne : key y ≠ key x := fun h => hy (h ▸ List.mem_map_of_mem hx)
      rw [if_neg hne, List.nil_append, ih hnd hx]

/-- A list with distinct keys has one element for each of its keys. -/
theorem filter_of_nodup_key [DecidableEq κ] {xs : List α} {key : α → κ} (hnd : (xs.map key).Nodup)
    {x : α} (hx : x ∈ xs) : (xs.filter fun y => key y = key x) = [x] := by
  have hpieces := flatMap_of_nodup_key (f := fun y => [y]) hnd hx
  rw [← List.flatMap_singleton' (xs.filter _), flatMap_filter]
  simpa using hpieces

/-- A list is put together again from its parts, one for each key. -/
theorem flatMap_filter_perm [DecidableEq κ] {keys : List κ} {xs : List α} {key : α → κ}
    (hnd : keys.Nodup) (hkeys : ∀ x ∈ xs, key x ∈ keys) :
    (keys.flatMap fun k => xs.filter fun x => key x = k).Perm xs := by
  induction keys generalizing xs with
  | nil =>
    have hnil : xs = [] := List.eq_nil_iff_forall_not_mem.mpr fun x hx => by simpa using hkeys x hx
    rw [hnil]
    exact .nil
  | cons k keys ih =>
    obtain ⟨hk, hnd⟩ := List.nodup_cons.mp hnd
    -- The parts of the other keys are parts of what the first key leaves.
    have hothers : (keys.flatMap fun l => xs.filter fun x => key x = l) =
        keys.flatMap fun l => (xs.filter fun x => !decide (key x = k)).filter
          fun x => key x = l := by
      refine List.flatMap_congr fun l hl => ?_
      have hne : l ≠ k := fun h => hk (h ▸ hl)
      rw [List.filter_filter]
      refine List.filter_congr fun x _ => ?_
      by_cases hx : key x = l <;> simp [hx, hne]
    have hleft : (keys.flatMap fun l => (xs.filter fun x => !decide (key x = k)).filter
        fun x => key x = l).Perm (xs.filter fun x => !decide (key x = k)) := by
      refine ih hnd fun x hx => ?_
      obtain ⟨hx, hne⟩ := List.mem_filter.mp hx
      exact (List.mem_cons.mp (hkeys x hx)).resolve_left (by simpa using hne)
    rw [List.flatMap_cons, hothers]
    exact (hleft.append_left _).trans (List.filter_append_perm _ xs)

/-- Keys are distinct exactly if each leads to one element only. -/
theorem nodup_map_iff_filter [DecidableEq κ] {xs : List α} {key : α → κ} (f : α → β) :
    (xs.map key).Nodup ↔ ∀ x ∈ xs, (xs.filter fun y => key y = key x).map f = [f x] := by
  refine ⟨fun hnd x hx => by rw [filter_of_nodup_key hnd hx, List.map_singleton], fun h => ?_⟩
  refine List.nodup_iff_count_le_one.mpr fun k => ?_
  by_cases hk : k ∈ xs.map key
  · obtain ⟨x, hx, rfl⟩ := List.mem_map.mp hk
    have hlength := congrArg List.length (h x hx)
    rw [List.length_map, List.length_singleton] at hlength
    rw [List.count, List.countP_map, List.countP_eq_length_filter, ← hlength]
    exact Nat.le_of_eq (congrArg List.length (List.filter_congr fun y _ => beq_eq_decide _ _))
  · rw [List.count_eq_zero_of_not_mem hk]
    exact Nat.zero_le 1

theorem nodup_eraseDups [DecidableEq α] (xs : List α) : xs.eraseDups.Nodup := by
  cases xs with
  | nil => exact List.nodup_nil
  | cons x xs =>
    rw [List.eraseDups_cons, List.nodup_cons]
    exact ⟨by simp, nodup_eraseDups (xs.filter fun y => !y == x)⟩
termination_by xs.length
decreasing_by exact Nat.lt_succ_of_le (List.length_filter_le _ _)

/-- An element of a list of pieces without repetitions is in one of the pieces only. -/
theorem eq_of_mem_flatMap {xs : List α} {f : α → List β} (hnd : (xs.flatMap f).Nodup) {x y : α}
    (hx : x ∈ xs) (hy : y ∈ xs) {b : β} (hbx : b ∈ f x) (hby : b ∈ f y) : x = y := by
  have : Std.Symm (Function.onFun List.Disjoint f) := ⟨fun _ _ h _ ha hb => h hb ha⟩
  by_contra hne
  exact (List.nodup_flatMap.mp hnd).2.forall hx hy hne hbx hby

theorem mul_length_le_length_flatMap {xs : List α} {f : α → List β} {k : Nat}
    (h : ∀ x ∈ xs, k ≤ (f x).length) : k * xs.length ≤ (xs.flatMap f).length := by
  induction xs with
  | nil => exact Nat.le_refl _
  | cons x xs ih =>
    obtain ⟨hx, hxs⟩ := List.forall_mem_cons.mp h
    rw [List.flatMap_cons, List.length_append, List.length_cons, Nat.mul_succ, Nat.add_comm]
    exact Nat.add_le_add hx (ih hxs)

/-- Two ways to cut a list at an element : the same, or one of them cuts later. -/
theorem append_cons_eq_append_cons_iff {a : α} {xs ys xs' ys' : List α} :
    xs ++ a :: ys = xs' ++ a :: ys' ↔ (xs = xs' ∧ ys = ys') ∨
      (∃ zs, xs' = xs ++ a :: zs ∧ ys = zs ++ a :: ys') ∨
      ∃ zs, xs = xs' ++ a :: zs ∧ ys' = zs ++ a :: ys := by
  constructor
  · intro h
    rcases List.append_eq_append_iff.mp h with ⟨zs, hxs, hys⟩ | ⟨zs, hxs, hys⟩
    · cases zs with
      | nil => exact .inl ⟨by simpa using hxs.symm, by simpa using hys⟩
      | cons z zs =>
        obtain ⟨rfl, hrest⟩ := List.cons.inj hys
        exact .inr (.inl ⟨zs, hxs, hrest⟩)
    · cases zs with
      | nil => exact .inl ⟨by simpa using hxs, by simpa using hys.symm⟩
      | cons z zs =>
        obtain ⟨rfl, hrest⟩ := List.cons.inj hys
        exact .inr (.inr ⟨zs, hxs, hrest⟩)
  · rintro (⟨rfl, rfl⟩ | ⟨zs, rfl, rfl⟩ | ⟨zs, rfl, rfl⟩)
    · rfl
    · simp
    · simp

theorem mem_intercalate {sep : List α} {ls : List (List α)} {a : α}
    (h : a ∈ sep.intercalate ls) : a ∈ sep ∨ ∃ l ∈ ls, a ∈ l := by
  induction ls with
  | nil => simp [List.intercalate] at h
  | cons l ls ih =>
    cases ls with
    | nil => exact .inr ⟨l, by simp, by simpa [List.intercalate] using h⟩
    | cons l' ls =>
      rw [List.intercalate_cons_cons, List.mem_append, List.mem_append] at h
      rcases h with (h | h) | h
      · exact .inr ⟨l, List.mem_cons_self, h⟩
      · exact .inl h
      · exact (ih h).imp_right fun ⟨m, hm, ha⟩ => ⟨m, List.mem_cons_of_mem _ hm, ha⟩

theorem mem_intercalate_of_mem {sep : List α} {ls : List (List α)} {l : List α} {a : α}
    (hl : l ∈ ls) (ha : a ∈ l) : a ∈ sep.intercalate ls := by
  induction ls with
  | nil => cases hl
  | cons m ls ih =>
    cases ls with
    | nil =>
      rw [List.mem_singleton] at hl
      subst hl
      simpa [List.intercalate] using ha
    | cons m' ls =>
      rw [List.intercalate_cons_cons, List.mem_append, List.mem_append]
      rcases List.mem_cons.mp hl with rfl | hl
      · exact .inl (.inl ha)
      · exact .inr (ih hl)

theorem filterMap_intercalate_singleton {f : α → Option β} {a : α} (ha : f a = none)
    (ls : List (List α)) :
    ([a].intercalate ls).filterMap f = ls.flatMap fun l => l.filterMap f := by
  induction ls with
  | nil => rfl
  | cons l ls ih =>
    cases ls with
    | nil => simp [List.intercalate]
    | cons l' ls =>
      rw [List.intercalate_cons_cons, List.filterMap_append, List.filterMap_append, ih]
      simp [ha]

end NetworkCompiler
