import NetworkCompiler.Proofs.ConfigUnit.Labels

/-!
# Identifiers and keys

Any text has an identifier, which is a name of the shell (`isShellName_identifier`), and a key,
which is a fragment of a label (`isFragment_key`) : lower-case letters and digits, with single
underscores between them. The fragments are the texts that are their own keys (`key_eq_self_iff`),
so the key of a key is that key. Each unit of the catalogue puts keys behind a word of its own, and
so its label is a name of the shell, whatever the unit is about (`UsualFact.isFree`).
-/

namespace NetworkCompiler.ConfigUnit

open Text.Chars (nil_mem_splitAt_iff)

/-! ## Identifiers -/

theorem isShellName_identifier (s : String) : IsShellName (identifier s) := by
  have hchars : ∀ c ∈ (identifier s).toList, IsNameStart c ∨ ('0' ≤ c ∧ c ≤ '9') := fun _ hc =>
    isIdentifierChar_iff.mp (isFolded_of_mem_identifier hc).isIdentifierChar
  rcases toList_identifier s with hs | ⟨c, cs, -, hdigit, hs⟩
  · rw [hs] at hchars
    exact ⟨'_', _, hs, .inr (.inr rfl), fun d hd => hchars d (List.mem_cons_of_mem _ hd)⟩
  · rw [hs] at hchars
    obtain ⟨hc, hcs⟩ := List.forall_mem_cons.mp hchars
    refine ⟨c, cs, hs, hc.resolve_right fun h => ?_, hcs⟩
    rw [isDigit_iff.mpr h] at hdigit
    cases hdigit

/-- An identifier ends with the folded text. -/
theorem suffix_identifier (s : String) : s.toList.map foldChar <:+ (identifier s).toList := by
  rcases toList_identifier s with hs | ⟨c, cs, hcs, -, hs⟩
  · rw [hs]
    exact List.suffix_cons '_' _
  · exact ⟨[], by rw [hs, hcs, List.nil_append]⟩

/-! ## Fragments of labels -/

/-- Lower-case letters and digits, with single underscores between them. -/
structure IsFragment (s : String) : Prop where
  chars : ∀ c ∈ s.toList, IsFolded c
  single : ¬['_', '_'] <:+: s.toList
  head : s.toList.head? ≠ some '_'
  last : s.toList.getLast? ≠ some '_'

section Fragment

variable {s : String}

/-- Between the underscores of a fragment there are words. -/
theorem isFragment_iff :
    IsFragment s ↔ (∀ c ∈ s.toList, IsFolded c) ∧ (s = "" ∨ "" ∉ Text.splitAt '_' s) := by
  have hpieces : "" ∈ Text.splitAt '_' s ↔ s.toList = [] ∨ s.toList.head? = some '_' ∨
      s.toList.getLast? = some '_' ∨ ['_', '_'] <:+: s.toList := by
    rw [← nil_mem_splitAt_iff, Text.splitAt, List.mem_map]
    simp
  constructor
  · intro h
    refine ⟨h.chars, or_iff_not_imp_left.mpr fun hne => ?_⟩
    rw [hpieces, not_or, not_or, not_or]
    exact ⟨fun hnil => hne (String.toList_eq_nil_iff.mp hnil), h.head, h.last, h.single⟩
  · rintro ⟨hchars, rfl | hne⟩
    · exact ⟨hchars, by decide, by decide, by decide⟩
    · rw [hpieces, not_or, not_or, not_or] at hne
      exact ⟨hchars, hne.2.2.2, hne.2.1, hne.2.2.1⟩

theorem isFragment_key (s : String) : IsFragment (key s) := by
  refine isFragment_iff.mpr ⟨fun _ => isFolded_of_mem_key, ?_⟩
  have hkey : key s = Text.joinWith "_" (keyWords s) := rfl
  by_cases hnil : keyWords s = []
  · rw [hkey, hnil]
    exact .inl rfl
  · have hsep : ∀ w ∈ keyWords s, '_' ∉ w.toList := fun w hw =>
      Text.not_mem_of_mem_splitAt (List.mem_of_mem_filter hw)
    rw [hkey, Text.splitAt_joinWith rfl hnil hsep]
    exact .inr (by simp [keyWords, words])

example : key "/home/alice/.ssh" = "home_alice_ssh" := by decide +kernel

/-- The fragments are the texts that are their own keys. -/
theorem key_eq_self_iff : key s = s ↔ IsFragment s := by
  refine ⟨fun h => h ▸ isFragment_key s, fun h => ?_⟩
  obtain ⟨hchars, hs⟩ := isFragment_iff.mp h
  rcases hs with rfl | hs
  · rfl
  · have hwords : words s = Text.splitAt '_' s :=
      List.filter_eq_self.mpr fun w hw => decide_eq_true fun hnil => hs (hnil ▸ hw)
    change Text.joinWith "_" (keyWords s) = s
    rw [keyWords_eq, map_foldChar hchars, String.ofList_toList, hwords, Text.joinWith_splitAt rfl]

end Fragment

/-! ## Labels of the catalogue -/

/-- What a unit of the catalogue that makes its own label is about. -/
inductive UsualFact where
  | packageInstalled (package : String)
  | serviceRunning (service : String)
  | serviceEnabled (service : String)
  | fileContent (path body : String)
  | directoryExists (path : String)
  | userExists (user fullname : String)
  | groupMember (user group : String)
  | fileMode (path mode : String)
  | fileOwner (path owner : String)
  | linkTo (link target : String)
  | kernelParameter (name value : String)

namespace UsualFact

/-- The unit about a fact. -/
def unit : UsualFact → ConfigUnit
  | packageInstalled package => ConfigUnit.packageInstalled package
  | serviceRunning service => ConfigUnit.serviceRunning service
  | serviceEnabled service => ConfigUnit.serviceEnabled service
  | fileContent path body => ConfigUnit.fileContent path body
  | directoryExists path => ConfigUnit.directoryExists path
  | userExists user fullname => ConfigUnit.userExists user fullname
  | groupMember user group => ConfigUnit.groupMember user group
  | fileMode path mode => ConfigUnit.fileMode path mode
  | fileOwner path owner => ConfigUnit.fileOwner path owner
  | linkTo link target => ConfigUnit.linkTo link target
  | kernelParameter name value => ConfigUnit.kernelParameter name value

theorem isFree (f : UsualFact) : f.unit.IsFree := by
  cases f with
  | packageInstalled package => exact isFree_packageInstalled package
  | serviceRunning service => exact isFree_serviceRunning service
  | serviceEnabled service => exact isFree_serviceEnabled service
  | fileContent path body => exact isFree_fileContent path body
  | directoryExists path => exact isFree_directoryExists path
  | userExists user fullname => exact isFree_userExists user fullname
  | groupMember user group => exact isFree_groupMember user group
  | fileMode path mode => exact isFree_fileMode path mode
  | fileOwner path owner => exact isFree_fileOwner path owner
  | linkTo link target => exact isFree_linkTo link target
  | kernelParameter name value => exact isFree_kernelParameter name value

end UsualFact

/-- The identifier of any text is a name of the shell that ends with the folded text. Its key is a
fragment with the words of the folded text, and a text is its own key exactly if it is a fragment.
The label of every unit of the catalogue is a name of the shell, and none of the reserved ones. -/
theorem keys_normalise :
    (∀ s, IsShellName (identifier s) ∧ s.toList.map foldChar <:+ (identifier s).toList) ∧
    (∀ s, IsFragment (key s) ∧ key (key s) = key s ∧
      words (key s) = words (String.ofList (s.toList.map foldChar))) ∧
    (∀ s, key s = s ↔ IsFragment s) ∧
    ∀ f : UsualFact, IsShellName f.unit.label ∧ f.unit.label ∉ reservedLabels := by
  refine ⟨fun s => ⟨isShellName_identifier s, suffix_identifier s⟩,
    fun s => ⟨isFragment_key s, key_eq_self_iff.mpr (isFragment_key s), ?_⟩,
    fun _ => key_eq_self_iff, fun f => ?_⟩
  · exact (words_key s).trans (keyWords_eq s)
  · have hlabel := f.isFree.label
    rw [isUnitLabel, Bool.and_eq_true, isIdentifier_iff] at hlabel
    exact ⟨hlabel.1, by simpa using hlabel.2⟩

end NetworkCompiler.ConfigUnit
