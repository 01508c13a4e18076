/-!
# Dictionaries

A `Dictionary κ α` is a finite map written as an association list whose keys ascend. `insert`
keeps the order and replaces an older value, `get?` looks a key up, `ofList` reads a list of
pairs in which the last value of a key counts. `get?_insert_self` and `get?_insert_of_ne` say
what an insertion does to every look-up. An `OrderedSet` is the same without values; `mem_insert`
says who is in it.
-/

namespace NetworkCompiler

/-- A finite map as an association list with ascending keys. -/
abbrev Dictionary (κ α : Type) := List (κ × α)

namespace Dictionary

variable {κ α : Type} [LT κ] [DecidableLT κ] [DecidableEq κ]

/-- Puts `v` under `k`, replacing the value `k` had. -/
def insert (k : κ) (v : α) : Dictionary κ α → Dictionary κ α
  | [] => [(k, v)]
  | (k', v') :: d =>
    if k = k' then (k, v) :: d
    else if k < k' then (k, v) :: (k', v') :: d
    else (k', v') :: insert k v d

/-- The value under `k`. -/
def get? (k : κ) : Dictionary κ α → Option α
  | [] => none
  | (k', v') :: d => if k = k' then some v' else get? k d

/-- Removes `k` and its value. -/
def erase (k : κ) (d : Dictionary κ α) : Dictionary κ α :=
  d.filter fun e => e.1 ≠ k

/-- The dictionary of a list of pairs; of two values for one key the later counts. -/
def ofList (l : List (κ × α)) : Dictionary κ α :=
  l.foldl (fun d e => insert e.1 e.2 d) []

/-- Everything of `d`, then everything of `e`, so that `e` wins. -/
def override (d e : Dictionary κ α) : Dictionary κ α :=
  e.foldl (fun d e => insert e.1 e.2 d) d

theorem insert_insert (k : κ) (v w : α) (d : Dictionary κ α) :
    insert k v (insert k w d) = insert k v d := by
  induction d with
  | nil => simp [insert]
  | cons e d ih =>
    obtain ⟨k', v'⟩ := e
    by_cases h : k = k'
    · simp [insert, h]
    · by_cases hlt : k < k' <;> simp [insert, h, hlt, ih]

@[simp]
theorem get?_insert_self (k : κ) (v : α) (d : Dictionary κ α) :
    get? k (insert k v d) = some v := by
  induction d with
  | nil => simp [insert, get?]
  | cons e d ih =>
    obtain ⟨k', v'⟩ := e
    by_cases h : k = k'
    · simp [insert, get?, h]
    · by_cases hlt : k < k' <;> simp [insert, get?, h, hlt, ih]

theorem get?_insert_of_ne {k j : κ} (hjk : j ≠ k) (v : α) (d : Dictionary κ α) :
    get? j (insert k v d) = get? j d := by
  induction d with
  | nil => simp [insert, get?, hjk]
  | cons e d ih =>
    obtain ⟨k', v'⟩ := e
    by_cases h : k = k'
    · subst h; simp [insert, get?, hjk]
    · by_cases hlt : k < k'
      · simp [insert, get?, h, hlt, hjk]
      · simp [insert, get?, h, hlt, ih]

end Dictionary

/-! ## Sets -/

/-- A finite set as a list of ascending members. -/
abbrev OrderedSet (α : Type) := List α

namespace OrderedSet

variable {α : Type} [LT α] [DecidableLT α] [DecidableEq α]

/-- Puts a member into a set. -/
def insert (a : α) : OrderedSet α → OrderedSet α
  | [] => [a]
  | b :: s =>
    if a = b then b :: s
    else if a < b then a :: b :: s
    else b :: insert a s

/-- The set of the members of a list. -/
def ofList (l : List α) : OrderedSet α :=
  l.foldl (fun s a => insert a s) []

theorem mem_insert {a b : α} {s : OrderedSet α} : b ∈ insert a s ↔ b = a ∨ b ∈ s := by
  induction s with
  | nil => simp [insert]
  | cons c s ih =>
    by_cases h : a = c
    · subst h; simp [insert]
    · by_cases hlt : a < c
      · simp [insert, h, hlt]
      · simp only [insert, h, hlt, if_false, List.mem_cons, ih]
        constructor
        · rintro (rfl | rfl | hb) <;> simp_all
        · rintro (rfl | rfl | hb) <;> simp_all

end OrderedSet

end NetworkCompiler
