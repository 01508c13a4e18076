import Mathlib.Tactic.Common
import NetworkCompiler.ConfigUnit.Basic
import NetworkCompiler.ConfigUnit.Catalogue
import NetworkCompiler.Proofs.Lists
import NetworkCompiler.Proofs.Text.Words

/-!
# Labels of usual units

An identifier is what a shell takes for a name (`isIdentifier_iff`), and a label that a unit may
have is one word (`isWord_of_isUnitLabel`).

The labels of the usual units are legal, whatever the units are about : each begins with a word
and an underscore (`IsCompound`), which no reserved label does, and goes on with keys of texts, in
which nothing but characters of identifiers is left (`allIdentifier_key`).

A key is a list of words with underscores between them (`words_key`), and that is all a label keeps
of a text : two texts have the same key exactly if they have the same words (`key_eq_key_iff`). A
text that is put together at a character which is no letter and no digit has the words of its
parts, one after the other (`keyWords_append_left`, `keyWords_append_right`). So the words of most
labels can be read off from the way they are written.
-/

namespace NetworkCompiler.ConfigUnit

/-! ## Names of the shell -/

/-- A letter of ASCII or an underscore. -/
def IsNameStart (c : Char) : Prop :=
  ('a' ≤ c ∧ c ≤ 'z') ∨ ('A' ≤ c ∧ c ≤ 'Z') ∨ c = '_'

/-- A text that a shell takes for the name of a variable : letters of ASCII, digits and underscores,
of which no digit is the first. -/
def IsShellName (s : String) : Prop :=
  ∃ c cs, s.toList = c :: cs ∧ IsNameStart c ∧ ∀ d ∈ cs, IsNameStart d ∨ ('0' ≤ d ∧ d ≤ '9')

theorem isDigit_iff {c : Char} : c.isDigit = true ↔ '0' ≤ c ∧ c ≤ '9' := by
  delta Char.isDigit
  rw [Bool.and_eq_true, decide_eq_true_eq, decide_eq_true_eq]
  exact Iff.rfl

theorem isAlpha_iff {c : Char} :
    c.isAlpha = true ↔ ('a' ≤ c ∧ c ≤ 'z') ∨ ('A' ≤ c ∧ c ≤ 'Z') := by
  delta Char.isAlpha Char.isUpper Char.isLower
  simp only [Bool.or_eq_true, Bool.and_eq_true, decide_eq_true_eq]
  exact or_comm

theorem isNameStart_iff {c : Char} : IsNameStart c ↔ (c.isAlpha || c = '_') = true := by
  rw [IsNameStart, Bool.or_eq_true, isAlpha_iff, decide_eq_true_eq, or_assoc]

theorem isIdentifierChar_iff {c : Char} :
    isIdentifierChar c = true ↔ IsNameStart c ∨ ('0' ≤ c ∧ c ≤ '9') := by
  rw [isIdentifierChar, Char.isAlphanum, isNameStart_iff, ← isDigit_iff]
  simp only [Bool.or_eq_true]
  exact or_right_comm

/-- The identifiers are the names of the shell. -/
theorem isIdentifier_iff {s : String} : isIdentifier s = true ↔ IsShellName s := by
  rw [isIdentifier, IsShellName]
  cases hs : s.toList with
  | nil => simp
  | cons c cs =>
    dsimp only
    rw [Bool.and_eq_true, ← isNameStart_iff, List.all_eq_true]
    simp only [isIdentifierChar_iff]
    constructor
    · rintro ⟨hc, hcs⟩
      exact ⟨c, cs, rfl, hc, hcs⟩
    · rintro ⟨d, ds, heq, hd, hds⟩
      obtain ⟨rfl, rfl⟩ := List.cons.inj heq
      exact ⟨hd, hds⟩

/-! ## Legal labels -/

theorem all_isIdentifierChar {label : String} (h : isIdentifier label = true) :
    label.toList.all isIdentifierChar = true := by
  obtain ⟨c, cs, hlabel, hc, hcs⟩ := isIdentifier_iff.mp h
  rw [hlabel, List.all_eq_true]
  exact List.forall_mem_cons.mpr ⟨isIdentifierChar_iff.mpr (.inl hc), fun d hd =>
    isIdentifierChar_iff.mpr (hcs d hd)⟩

theorem isIdentifier_of_isUnitLabel {label : String} (h : isUnitLabel label = true) :
    isIdentifier label = true := by
  rw [isUnitLabel, Bool.and_eq_true] at h
  exact h.1

theorem isSolid_of_identifier {s : String} (h : s.toList.all isIdentifierChar = true) :
    Text.Chars.IsSolid s.toList := by
  intro c hc
  have hchar := List.all_eq_true.mp h c hc
  rw [isIdentifierChar, Bool.or_eq_true, decide_eq_true_eq] at hchar
  rcases hchar with hchar | rfl
  · exact Text.isBlank_of_isAlphanum hchar
  · decide

/-- A legal label is one word. -/
theorem isWord_of_isUnitLabel {label : String} (h : isUnitLabel label = true) :
    Text.IsWord label := by
  have hlabel := isIdentifier_of_isUnitLabel h
  refine ⟨fun hnil => ?_, isSolid_of_identifier (all_isIdentifierChar hlabel)⟩
  rw [isIdentifier, hnil] at hlabel
  cases hlabel

/-! ## Characters of keys -/

/-- A lower-case letter of ASCII, a digit or an underscore. -/
def IsFolded (c : Char) : Prop :=
  ('a' ≤ c ∧ c ≤ 'z') ∨ ('0' ≤ c ∧ c ≤ '9') ∨ c = '_'

theorem IsFolded.isIdentifierChar {c : Char} (h : IsFolded c) : isIdentifierChar c = true := by
  rw [isIdentifierChar_iff, IsNameStart]
  unfold IsFolded at h
  tauto

theorem isFolded_foldChar (c : Char) : IsFolded (foldChar c) := by
  rw [foldChar]
  split
  · next h =>
    delta Char.toLower
    split
    · next hupper =>
      have hlow : 65 ≤ c.val.toNat := UInt32.le_iff_toNat_le.mp hupper.1
      have hhigh : c.val.toNat ≤ 90 := UInt32.le_iff_toNat_le.mp hupper.2
      have hval : (c.val + ('a'.val - 'A'.val)).toNat = c.val.toNat + 32 :=
        (UInt32.toNat_add _ _).trans (Nat.mod_eq_of_lt (by change _ + 32 < _; omega))
      refine .inl ⟨UInt32.le_iff_toNat_le.mpr ?_, UInt32.le_iff_toNat_le.mpr ?_⟩
      · rw [hval]; change 97 ≤ _; omega
      · rw [hval]; change _ ≤ 122; omega
    · next hupper =>
      rw [Char.isAlphanum, Bool.or_eq_true, isAlpha_iff, isDigit_iff] at h
      rcases h with (h | h) | h
      · exact .inl h
      · exact absurd h hupper
      · exact .inr (.inl h)
  · exact .inr (.inr rfl)

theorem toLower_of_lt {c : Char} (h : c < 'A' ∨ 'Z' < c) : c.toLower = c := by
  delta Char.toLower
  refine dif_neg fun hupper => ?_
  exact h.elim (fun hlow => absurd hupper.1 (Char.not_le.mpr hlow))
    fun hhigh => absurd hupper.2 (Char.not_le.mpr hhigh)

theorem foldChar_of_isFolded {c : Char} (h : IsFolded c) : foldChar c = c := by
  rcases h with h | h | rfl
  · rw [foldChar, Char.isAlphanum, isAlpha_iff.mpr (.inl h), Bool.true_or, if_pos rfl]
    exact toLower_of_lt (.inr (Std.lt_of_lt_of_le (by decide) h.1))
  · rw [foldChar, Char.isAlphanum, isDigit_iff.mpr h, Bool.or_true, if_pos rfl]
    exact toLower_of_lt (.inl (Std.lt_of_le_of_lt h.2 (by decide)))
  · rfl

theorem map_foldChar {cs : List Char} (h : ∀ c ∈ cs, IsFolded c) : cs.map foldChar = cs :=
  (List.map_congr_left fun c hc => foldChar_of_isFolded (h c hc)).trans (List.map_id cs)

/-- A text of characters that may stand in an identifier. -/
def AllIdentifier (s : String) : Prop :=
  ∀ c ∈ s.toList, isIdentifierChar c = true

instance (s : String) : Decidable (AllIdentifier s) :=
  List.decidableBAll (isIdentifierChar · = true) s.toList

theorem AllIdentifier.append {s t : String} (hs : AllIdentifier s) (ht : AllIdentifier t) :
    AllIdentifier (s ++ t) := by
  intro c hc
  rw [String.toList_append, List.mem_append] at hc
  exact hc.elim (hs c) (ht c)

/-- An identifier is the folded text, with an underscore in front where that is no name. -/
theorem toList_identifier (s : String) :
    (identifier s).toList = '_' :: s.toList.map foldChar ∨
      ∃ c cs, s.toList.map foldChar = c :: cs ∧ c.isDigit = false ∧
        (identifier s).toList = c :: cs := by
  rw [identifier]
  cases s.toList.map foldChar with
  | nil => exact .inl rfl
  | cons c cs =>
    dsimp only
    rw [String.toList_ofList]
    split_ifs with hdigit
    · exact .inl rfl
    · exact .inr ⟨c, cs, rfl, by simpa using hdigit, rfl⟩

theorem isFolded_of_mem_identifier {s : String} {c : Char} (h : c ∈ (identifier s).toList) :
    IsFolded c := by
  have hfold : ∀ c ∈ s.toList.map foldChar, IsFolded c := by
    simpa using fun c _ => isFolded_foldChar c
  rcases toList_identifier s with hs | ⟨d, ds, hds, -, hs⟩
  · rw [hs] at h
    rcases List.mem_cons.mp h with rfl | h
    · exact .inr (.inr rfl)
    · exact hfold c h
  · rw [hs, ← hds] at h
    exact hfold c h

theorem isFolded_of_mem_key {s : String} {c : Char} (h : c ∈ (key s).toList) : IsFolded c := by
  rw [key, Text.joinWith, String.toList_intercalate] at h
  rcases mem_intercalate h with h | ⟨piece, hpiece, h⟩
  · rw [List.mem_singleton.mp h]
    exact .inr (.inr rfl)
  · obtain ⟨w, hw, rfl⟩ := List.mem_map.mp hpiece
    obtain ⟨cs, hcs, rfl⟩ := List.mem_map.mp (List.mem_of_mem_filter hw)
    rw [String.toList_ofList] at h
    refine isFolded_of_mem_identifier (s := s) ?_
    rw [← Text.Chars.intercalate_splitAt '_' (identifier s).toList]
    exact mem_intercalate_of_mem hcs h

theorem allIdentifier_key (s : String) : AllIdentifier (key s) :=
  fun _ hc => (isFolded_of_mem_key hc).isIdentifierChar

/-! ## Labels of several words -/

/-- An identifier of which an underscore ends a word. -/
def IsCompound (s : String) : Prop :=
  isIdentifier s = true ∧ '_' ∈ s.toList

instance (s : String) : Decidable (IsCompound s) :=
  inferInstanceAs (Decidable (isIdentifier s = true ∧ '_' ∈ s.toList))

theorem IsCompound.append {s t : String} (hs : IsCompound s) (ht : AllIdentifier t) :
    IsCompound (s ++ t) := by
  obtain ⟨c, cs, hcs, hc, htail⟩ := isIdentifier_iff.mp hs.1
  refine ⟨isIdentifier_iff.mpr ⟨c, cs ++ t.toList, ?_, hc, fun d hd => ?_⟩, ?_⟩
  · rw [String.toList_append, hcs, List.cons_append]
  · exact (List.mem_append.mp hd).elim (htail d) fun hd => isIdentifierChar_iff.mp (ht d hd)
  · rw [String.toList_append]
    exact List.mem_append_left _ hs.2

theorem IsCompound.isUnitLabel {s : String} (h : IsCompound s) : isUnitLabel s = true := by
  have hreserved : ∀ t ∈ reservedLabels, '_' ∉ t.toList := by decide
  have hs : s ∉ reservedLabels := fun hs => hreserved s hs h.2
  simpa [ConfigUnit.isUnitLabel, h.1] using hs

theorem isUnitLabel_append_key {word : String} (h : IsCompound word) (s : String) :
    isUnitLabel (word ++ key s) = true :=
  (h.append (allIdentifier_key s)).isUnitLabel

/-! ## The catalogue -/

/-- A unit with a legal label that depends on no other unit. -/
structure IsFree (u : ConfigUnit) : Prop where
  label : isUnitLabel u.label = true
  precondition : u.precondition = proceed

theorem isFree_packageInstalled (package : String) : (packageInstalled package).IsFree :=
  ⟨isUnitLabel_append_key (by decide) package, rfl⟩

theorem isFree_serviceRunning (service : String) : (serviceRunning service).IsFree :=
  ⟨((IsCompound.append (s := "svc_") (by decide) (allIdentifier_key service)).append
    (t := "_running") (by decide)).isUnitLabel, rfl⟩

theorem isFree_serviceEnabled (service : String) : (serviceEnabled service).IsFree :=
  ⟨((IsCompound.append (s := "svc_") (by decide) (allIdentifier_key service)).append
    (t := "_enabled") (by decide)).isUnitLabel, rfl⟩

theorem isFree_fileContent (path body : String) : (fileContent path body).IsFree :=
  ⟨isUnitLabel_append_key (by decide) path, rfl⟩

theorem isFree_directoryExists (path : String) : (directoryExists path).IsFree :=
  ⟨isUnitLabel_append_key (by decide) path, rfl⟩

theorem isFree_userExists (user fullname : String) : (userExists user fullname).IsFree :=
  ⟨isUnitLabel_append_key (by decide) user, rfl⟩

theorem isFree_groupMember (user group : String) : (groupMember user group).IsFree :=
  ⟨(((IsCompound.append (s := "group_") (by decide) (allIdentifier_key group)).append
    (t := "_") (by decide)).append (allIdentifier_key user)).isUnitLabel, rfl⟩

theorem isFree_fileMode (path mode : String) : (fileMode path mode).IsFree :=
  ⟨isUnitLabel_append_key (by decide) path, rfl⟩

theorem isFree_fileOwner (path owner : String) : (fileOwner path owner).IsFree :=
  ⟨isUnitLabel_append_key (by decide) path, rfl⟩

theorem isFree_linkTo (link target : String) : (linkTo link target).IsFree :=
  ⟨isUnitLabel_append_key (by decide) link, rfl⟩

theorem isFree_kernelParameter (name value : String) : (kernelParameter name value).IsFree :=
  ⟨isUnitLabel_append_key (by decide) name, rfl⟩

open Text.Chars (splitAt splitAt_append_sep)

/-! ## Words between underscores -/

/-- The words of a label. -/
def words (s : String) : List String :=
  (Text.splitAt '_' s).filter fun w => w ≠ ""

/-- The words that a key keeps of a text. -/
def keyWords (s : String) : List String :=
  words (identifier s)

theorem words_ofList_append (cs ds : List Char) :
    words (String.ofList (cs ++ '_' :: ds)) =
      words (String.ofList cs) ++ words (String.ofList ds) := by
  simp only [words, Text.splitAt, String.toList_ofList]
  rw [splitAt_append_sep, List.map_append, List.filter_append]

theorem words_nil : words (String.ofList []) = [] :=
  rfl

section Append

variable {s t : String}

/-- Behind an underscore new words begin. -/
theorem words_append_left (h : s.toList.getLast? = some '_') :
    words (s ++ t) = words s ++ words t := by
  obtain ⟨cs, hcs⟩ := List.getLast?_eq_some_iff.mp h
  have hs : s = String.ofList (cs ++ '_' :: []) := by rw [← hcs, String.ofList_toList]
  have hst : s ++ t = String.ofList (cs ++ '_' :: t.toList) := by
    apply String.toList_injective
    rw [String.toList_append, hcs, String.toList_ofList, List.append_assoc]
    rfl
  rw [hst, words_ofList_append, String.ofList_toList, hs, words_ofList_append, words_nil,
    List.append_nil]

/-- In front of an underscore words end. -/
theorem words_append_right (h : t.toList.head? = some '_') :
    words (s ++ t) = words s ++ words t := by
  obtain ⟨cs, hcs⟩ := List.head?_eq_some_iff.mp h
  have ht : t = String.ofList ([] ++ '_' :: cs) := by
    rw [List.nil_append, ← hcs, String.ofList_toList]
  have hst : s ++ t = String.ofList (s.toList ++ '_' :: cs) := by
    apply String.toList_injective
    rw [String.toList_append, hcs, String.toList_ofList]
  rw [hst, words_ofList_append, String.ofList_toList, ht, words_ofList_append, words_nil,
    List.nil_append]

end Append

/-- An underscore separates words. -/
theorem words_append_sep (s t : String) : words (s ++ "_" ++ t) = words s ++ words t := by
  have hst : s ++ "_" ++ t = String.ofList (s.toList ++ '_' :: t.toList) := by
    apply String.toList_injective
    simp [String.toList_append]
  rw [hst, words_ofList_append, String.ofList_toList, String.ofList_toList]

/-! ## Words of keys -/

/-- Words with underscores between them are found again. -/
theorem words_joinWith {ws : List String} (h : ∀ w ∈ ws, w ≠ "" ∧ '_' ∉ w.toList) :
    words (Text.joinWith "_" ws) = ws := by
  by_cases hne : ws = []
  · subst hne
    rfl
  · rw [words, Text.splitAt_joinWith rfl hne fun w hw => (h w hw).2, List.filter_eq_self]
    exact fun w hw => decide_eq_true (h w hw).1

theorem words_key (s : String) : words (key s) = keyWords s := by
  refine words_joinWith fun w hw => ?_
  obtain ⟨hmem, hne⟩ := List.mem_filter.mp hw
  obtain ⟨cs, hcs, rfl⟩ := List.mem_map.mp hmem
  rw [String.toList_ofList]
  exact ⟨of_decide_eq_true hne, Text.Chars.not_mem_of_mem_splitAt hcs⟩

/-- Texts have the same key exactly if they have the same words. -/
theorem key_eq_key_iff {s t : String} : key s = key t ↔ keyWords s = keyWords t := by
  refine ⟨fun h => ?_, fun h => congrArg (Text.joinWith "_") h⟩
  rw [← words_key, ← words_key, h]

/-- An underscore in front of a digit separates nothing. -/
theorem keyWords_eq (s : String) : keyWords s = words (String.ofList (s.toList.map foldChar)) := by
  rw [keyWords, ← String.ofList_toList (s := identifier s)]
  rcases toList_identifier s with hs | ⟨c, cs, hcs, -, hs⟩
  · rw [hs, ← List.nil_append ('_' :: _), words_ofList_append, words_nil, List.nil_append]
  · rw [hs, hcs]

section Append

variable {s t : String}

theorem ofList_map_append :
    String.ofList ((s ++ t).toList.map foldChar) =
      String.ofList (s.toList.map foldChar) ++ String.ofList (t.toList.map foldChar) := by
  rw [String.toList_append, List.map_append, String.ofList_append]

/-- Behind a character that is no letter and no digit new words begin. -/
theorem keyWords_append_left (h : (s.toList.map foldChar).getLast? = some '_') :
    keyWords (s ++ t) = keyWords s ++ keyWords t := by
  rw [keyWords_eq, keyWords_eq, keyWords_eq, ofList_map_append]
  exact words_append_left (by rwa [String.toList_ofList])

/-- In front of a character that is no letter and no digit words end. -/
theorem keyWords_append_right (h : (t.toList.map foldChar).head? = some '_') :
    keyWords (s ++ t) = keyWords s ++ keyWords t := by
  rw [keyWords_eq, keyWords_eq, keyWords_eq, ofList_map_append]
  exact words_append_right (by rwa [String.toList_ofList])

/-- A character that is no letter and no digit separates words. -/
theorem keyWords_append_sep {sep : String} (h : sep.toList.map foldChar = ['_']) (s t : String) :
    keyWords (s ++ sep ++ t) = keyWords s ++ keyWords t := by
  have hst : (s ++ sep ++ t).toList.map foldChar =
      s.toList.map foldChar ++ '_' :: t.toList.map foldChar := by
    simp [String.toList_append, h]
  rw [keyWords_eq, hst, words_ofList_append, ← keyWords_eq, ← keyWords_eq]

end Append

/-! ## Labels as texts -/

section Labels

@[simp] theorem label_after (u : ConfigUnit) (precondition : String) :
    (u.after precondition).label = u.label :=
  rfl

theorem label_fileContent (path body : String) :
    (fileContent path body).label = "file_" ++ key path :=
  rfl

theorem label_directoryExists (path : String) :
    (directoryExists path).label = "dir_" ++ key path :=
  rfl

theorem label_userExists (user fullname : String) :
    (userExists user fullname).label = "user_" ++ key user :=
  rfl

theorem label_groupMember (user group : String) :
    (groupMember user group).label = "group_" ++ key group ++ "_" ++ key user :=
  rfl

theorem label_fileMode (path mode : String) : (fileMode path mode).label = "mode_" ++ key path :=
  rfl

theorem label_fileOwner (path owner : String) :
    (fileOwner path owner).label = "owner_" ++ key path :=
  rfl

end Labels

end NetworkCompiler.ConfigUnit
