import NetworkCompiler.Proofs.Network.Names
import NetworkCompiler.Proofs.Provision.Reservations

/-!
# Reading the file of the address service

The address service reads its file character by character : `Place.step` says what one character
does, `tokens?` what the pieces of a whole file are, and `items?` which statements and blocks they
make. A configuration whose names are words is read as its own statements, one block for each subnet
and one for each reservation, and nothing else, exactly if its domain may stand between quotes
(`LeaseConfig.items?_text_iff`); if not, the domain can add blocks of its own
(`LeaseConfig.items?_text_of_domain`).

The proof goes along the way the file is written. `Spells` is about a piece of a line and leaves
open what follows it, as long as that does not belong to the last word; `Reads` is about whole
lines, one behind the other.
-/

namespace NetworkCompiler

open Ipv4 (Address Block)
open Text (IsLine inLine unlines isBlank)

namespace Provision

namespace LeaseFile

/-! ## Characters -/

/-- The smallest pieces of a file. What stands between quotes keeps its backslashes. -/
inductive Token where
  | word (text : String)
  | quoted (text : String)
  | sign (c : Char)
  deriving DecidableEq

/-- Where the reader stands, with what it has read of a word or between quotes. -/
inductive Place where
  | between
  | word (read : List Char)
  | quotes (read : List Char)
  | escape (read : List Char)
  | comment
  deriving DecidableEq

/-- Whether a character may stand in a word. -/
def isBareChar (c : Char) : Bool :=
  c.isAlphanum || c = '-' || c = '_' || c = '.' || c = ':'

/-- A character that continues nothing. -/
def begins (c : Char) : List Token × Place :=
  if isBlank c then ([], .between)
  else if isBareChar c then ([], .word [c])
  else if c = '"' then ([], .quotes [])
  else if c = '#' then ([], .comment)
  else ([.sign c], .between)

namespace Place

/-- One character : the tokens that end with it, and where the reader stands behind it. -/
def step : Place → Char → List Token × Place
  | between, c => begins c
  | word read, c =>
    if isBareChar c then ([], word (read ++ [c]))
    else (.word (String.ofList read) :: (begins c).1, (begins c).2)
  | quotes read, c =>
    if c = '"' then ([.quoted (String.ofList read)], between)
    else if c = '\\' then ([], escape read)
    else ([], quotes (read ++ [c]))
  | escape read, c => ([], quotes (read ++ ['\\', c]))
  | comment, c => ([], if c = '\n' then between else comment)

/-- Characters, one after the other. -/
def run : Place → List Char → List Token × Place
  | p, [] => ([], p)
  | p, c :: cs => ((p.step c).1 ++ ((p.step c).2.run cs).1, ((p.step c).2.run cs).2)

/-- A file ends outside of quotes. -/
def finish? : Place → Option (List Token)
  | between | comment => some []
  | word read => some [.word (String.ofList read)]
  | quotes _ | escape _ => none

end Place

/-- The tokens of a file. -/
def tokens? (text : String) : Option (List Token) :=
  (Place.between.run text.toList).2.finish?.map ((Place.between.run text.toList).1 ++ ·)

/-! ## Statements and blocks -/

/-- A statement, or a block of statements behind its head. -/
inductive Item where
  | statement (words : List Token)
  | block (head : List Token) (body : List (List Token))
  deriving DecidableEq

/-- The items read so far, the block that is open with its statements, and the words behind the last
sign. -/
structure Reading where
  items : List Item
  inside : Option (List Token × List (List Token))
  words : List Token
  deriving DecidableEq

/-- One token. No block stands inside of another. -/
def Reading.next (r : Reading) : Token → Option Reading
  | .sign ';' =>
    match r.inside with
    | none => some ⟨r.items ++ [.statement r.words], none, []⟩
    | some (head, body) => some ⟨r.items, some (head, body ++ [r.words]), []⟩
  | .sign '\x7b' =>
    match r.inside with
    | none => some ⟨r.items, some (r.words, []), []⟩
    | some _ => none
  | .sign '\x7d' =>
    match r.inside, r.words with
    | some (head, body), [] => some ⟨r.items ++ [.block head body], none, []⟩
    | _, _ => none
  | t => some { r with words := r.words ++ [t] }

/-- The items of a list of tokens. -/
def itemsOf? (ts : List Token) : Option (List Item) :=
  (ts.foldlM Reading.next ⟨[], none, []⟩).bind fun r =>
    if r.inside = none ∧ r.words = [] then some r.items else none

/-- The items of a file. -/
def items? (text : String) : Option (List Item) :=
  (tokens? text).bind itemsOf?

/-- The block of a host. -/
structure Host where
  name : String
  mac : String
  address : String
  deriving DecidableEq

/-- The hardware address in a statement. -/
def macOf? : List Token → Option String
  | [.word "hardware", .word "ethernet", .word mac] => some mac
  | _ => none

/-- The address in a statement. -/
def addressOf? : List Token → Option String
  | [.word "fixed-address", .word address] => some address
  | _ => none

/-- The host that an item is about. -/
def Item.host? : Item → Option Host
  | .block [.word "host", .word name] body => do
    let mac ← body.findSome? macOf?
    let address ← body.findSome? addressOf?
    some ⟨name, mac, address⟩
  | _ => none

/-- The hosts of a file. -/
def hosts? (text : String) : Option (List Host) :=
  (items? text).map (List.filterMap Item.host?)

/-- Whether a token stands for itself. -/
def Token.isSign : Token → Bool
  | sign _ => true
  | _ => false

namespace Item

/-- The tokens of an item. -/
def tokens : Item → List Token
  | statement words => words ++ [.sign ';']
  | block head body =>
    head ++ .sign '\x7b' :: (body.flatMap (· ++ [.sign ';']) ++ [.sign '\x7d'])

/-- The statements of an item and the head of a block hold no signs. -/
def HasNoSigns : Item → Prop
  | statement words => ∀ t ∈ words, t.isSign = false
  | block head body =>
    (∀ t ∈ head, t.isSign = false) ∧ ∀ words ∈ body, ∀ t ∈ words, t.isSign = false

end Item

theorem Reading.foldlM_words {words : List Token} (h : ∀ t ∈ words, t.isSign = false)
    (r : Reading) :
    words.foldlM Reading.next r = some { r with words := r.words ++ words } := by
  induction words generalizing r with
  | nil => simp
  | cons t words ih =>
    obtain ⟨ht, hwords⟩ := List.forall_mem_cons.mp h
    have hnext : r.next t = some { r with words := r.words ++ [t] } := by
      cases t with
      | word text => rfl
      | quoted text => rfl
      | sign c => cases ht
    rw [List.foldlM_cons, hnext, Option.bind_eq_bind, Option.bind_some, ih hwords]
    simp

theorem Reading.foldlM_body {body : List (List Token)}
    (h : ∀ words ∈ body, ∀ t ∈ words, t.isSign = false) (items : List Item) (head : List Token)
    (before : List (List Token)) :
    (body.flatMap (· ++ [.sign ';'])).foldlM Reading.next ⟨items, some (head, before), []⟩ =
      some ⟨items, some (head, before ++ body), []⟩ := by
  induction body generalizing before with
  | nil => simp
  | cons words body ih =>
    obtain ⟨hwords, hbody⟩ := List.forall_mem_cons.mp h
    rw [List.flatMap_cons, List.foldlM_append, List.foldlM_append, foldlM_words hwords]
    have hend : Reading.next ⟨items, some (head, before), words⟩ (.sign ';') =
        some ⟨items, some (head, before ++ [words]), []⟩ := rfl
    simp only [List.nil_append, Option.bind_eq_bind, Option.bind_some, List.foldlM_cons, hend,
      List.foldlM_nil, Option.pure_def]
    rw [ih hbody, List.append_assoc, List.singleton_append]

/-- An item is read off its tokens. -/
theorem Item.foldlM_tokens {item : Item} (h : item.HasNoSigns) (items : List Item) :
    item.tokens.foldlM Reading.next ⟨items, none, []⟩ = some ⟨items ++ [item], none, []⟩ := by
  cases item with
  | statement words =>
    rw [tokens, List.foldlM_append, Reading.foldlM_words h]
    rfl
  | block head body =>
    obtain ⟨hhead, hbody⟩ := h
    have hopen : Reading.next ⟨items, none, head⟩ (.sign '\x7b') =
        some ⟨items, some (head, []), []⟩ := rfl
    rw [tokens, List.foldlM_append, Reading.foldlM_words hhead]
    simp only [List.nil_append, Option.bind_eq_bind, Option.bind_some, List.foldlM_cons, hopen]
    rw [List.foldlM_append, Reading.foldlM_body hbody]
    rfl

/-- Items are read off their tokens, one behind the other. -/
theorem itemsOf?_tokens {items : List Item} (h : ∀ i ∈ items, i.HasNoSigns) :
    itemsOf? (items.flatMap Item.tokens) = some items := by
  have hfold : ∀ before, (items.flatMap Item.tokens).foldlM Reading.next ⟨before, none, []⟩ =
      some ⟨before ++ items, none, []⟩ := by
    induction items with
    | nil => simp
    | cons item items ih =>
      obtain ⟨hitem, hitems⟩ := List.forall_mem_cons.mp h
      intro before
      rw [List.flatMap_cons, List.foldlM_append, Item.foldlM_tokens hitem, Option.bind_eq_bind,
        Option.bind_some, ih hitems, List.append_assoc, List.singleton_append]
  rw [itemsOf?, hfold]
  rfl

/-- The tokens read so far. -/
def Reading.tokens (r : Reading) : List Token :=
  r.items.flatMap Item.tokens ++
    match r.inside with
    | none => r.words
    | some (head, body) => head ++ .sign '\x7b' :: (body.flatMap (· ++ [.sign ';']) ++ r.words)

theorem Reading.tokens_of_next {r r' : Reading} {t : Token} (h : r.next t = some r') :
    r'.tokens = r.tokens ++ [t] := by
  obtain ⟨items, inside, words⟩ := r
  unfold next at h
  split at h
  · cases inside <;> cases h <;> simp [tokens, Item.tokens]
  · cases inside <;> cases h
    simp [tokens]
  · split at h
    · next hinside hwords =>
      cases h
      dsimp only at hinside hwords
      simp [tokens, hinside, hwords, Item.tokens]
    · cases h
  · cases h
    cases inside <;> simp [tokens]

/-- No token is lost. -/
theorem flatMap_tokens_of_itemsOf? {ts : List Token} {items : List Item}
    (h : itemsOf? ts = some items) : items.flatMap Item.tokens = ts := by
  have hfold : ∀ (us : List Token) (r r' : Reading), us.foldlM Reading.next r = some r' →
      r'.tokens = r.tokens ++ us := by
    intro us
    induction us with
    | nil =>
      intro r r' h
      cases h
      simp
    | cons t us ih =>
      intro r r' h
      rw [List.foldlM_cons] at h
      obtain ⟨q, hq, h⟩ := Option.bind_eq_some_iff.mp h
      rw [ih q r' h, Reading.tokens_of_next hq, List.append_assoc, List.singleton_append]
  obtain ⟨r, hr, h⟩ := Option.bind_eq_some_iff.mp h
  split at h
  · next hends =>
    cases h
    have htokens := hfold ts _ r hr
    simpa [Reading.tokens, hends.1, hends.2] using htokens
  · cases h

/-! ## Pieces of lines -/

theorem isBlank_of_isBareChar {c : Char} (h : isBareChar c = true) : isBlank c = false := by
  simp only [isBareChar, Bool.or_eq_true, decide_eq_true_eq] at h
  obtain (((h | rfl) | rfl) | rfl) | rfl := h
  · exact Text.isBlank_of_isAlphanum h
  all_goals decide

/-- A text that is one word of the file. -/
def IsBare (s : String) : Prop :=
  s.toList ≠ [] ∧ ∀ c ∈ s.toList, isBareChar c = true

instance (s : String) : Decidable (IsBare s) :=
  decidable_of_iff (s.toList ≠ [] ∧ s.toList.all isBareChar = true) (by simp [IsBare])

/-- A text that may stand between quotes : none of its quotes ends it, and it does not end in the
middle of an escape. -/
def IsQuotable (s : String) : Prop :=
  (Place.quotes []).run s.toList = ([], .quotes s.toList)

instance (s : String) : Decidable (IsQuotable s) :=
  inferInstanceAs (Decidable (_ = _))

namespace Place

theorem run_append (p : Place) (cs ds : List Char) :
    p.run (cs ++ ds) = ((p.run cs).1 ++ ((p.run cs).2.run ds).1, ((p.run cs).2.run ds).2) := by
  induction cs generalizing p with
  | nil => simp [run]
  | cons c cs ih => simp [run, ih]

theorem run_word {cs : List Char} (h : ∀ c ∈ cs, isBareChar c = true) (read : List Char) :
    (word read).run cs = ([], word (read ++ cs)) := by
  induction cs generalizing read with
  | nil => simp [run]
  | cons c cs ih =>
    obtain ⟨hc, hcs⟩ := List.forall_mem_cons.mp h
    rw [run, step, if_pos hc, ih hcs]
    simp

theorem run_quotes {cs : List Char} (hquote : '"' ∉ cs) (hescape : '\\' ∉ cs)
    (read : List Char) : (quotes read).run cs = ([], quotes (read ++ cs)) := by
  induction cs generalizing read with
  | nil => simp [run]
  | cons c cs ih =>
    rw [List.mem_cons, not_or] at hquote hescape
    rw [run, step, if_neg (Ne.symm hquote.1), if_neg (Ne.symm hescape.1),
      ih hquote.2 hescape.2]
    simp

/-- What stands between quotes goes up to the first quote that is not escaped. -/
theorem exists_of_run_quotes {p : Place} {read : List Char} (cs : List Char)
    (hp : p = quotes read ∨ ∃ r, p = escape r ∧ read = r ++ ['\\']) :
    (p.run cs).1 = [] ∨
      ∃ pre post, cs = pre ++ '"' :: post ∧ p.run pre = ([], quotes (read ++ pre)) := by
  -- An escape takes two characters, so the induction is over both places at once.
  induction cs generalizing p read with
  | nil => exact .inl rfl
  | cons c cs ih =>
    have hcons : ∀ {q : Place}, p.step c = ([], q) →
        q = quotes (read ++ [c]) ∨ (∃ r, q = escape r ∧ read ++ [c] = r ++ ['\\']) →
        (p.run (c :: cs)).1 = [] ∨ ∃ pre post, c :: cs = pre ++ '"' :: post ∧
          p.run pre = ([], quotes (read ++ pre)) := by
      intro q hstep hq
      rcases ih hq with hnil | ⟨pre, post, rfl, hrun⟩
      · exact .inl (by simp [run, hstep, hnil])
      · exact .inr ⟨c :: pre, post, rfl, by simp [run, hstep, hrun]⟩
    rcases hp with rfl | ⟨r, rfl, rfl⟩
    · by_cases hquote : c = '"'
      · exact .inr ⟨[], cs, by rw [hquote]; rfl, by simp [run]⟩
      · by_cases hescape : c = '\\'
        · exact hcons (q := escape read) (by simp [step, hescape])
            (.inr ⟨read, rfl, by rw [hescape]⟩)
        · exact hcons (by simp [step, hquote, hescape]) (.inl rfl)
    · exact hcons rfl (.inl (by simp))

theorem run_comment {cs : List Char} (h : '\n' ∉ cs) : comment.run cs = ([], comment) := by
  induction cs with
  | nil => rfl
  | cons c cs ih =>
    rw [List.mem_cons, not_or] at h
    rw [run, step, if_neg (Ne.symm h.1), ih h.2]
    rfl

end Place

/-- A text that is read as these tokens wherever a word may begin, if what follows does not belong
to its last word. -/
def Spells (s : String) (ts : List Token) : Prop :=
  ∀ c, isBareChar c = false →
    Place.between.run (s.toList ++ [c]) = (ts ++ (begins c).1, (begins c).2)

theorem IsBare.spells {s : String} (h : IsBare s) : Spells s [.word s] := by
  obtain ⟨hne, hbare⟩ := h
  intro c hc
  obtain ⟨b, cs, hs⟩ := List.exists_cons_of_ne_nil hne
  rw [hs] at hbare
  obtain ⟨hb, hcs⟩ := List.forall_mem_cons.mp hbare
  have hbegins : begins b = ([], .word [b]) := by
    rw [begins, if_neg (by simp [isBlank_of_isBareChar hb]), if_pos hb]
  have hofList : String.ofList (b :: cs) = s := by rw [← hs, String.ofList_toList]
  rw [hs, List.cons_append, Place.run, Place.step, hbegins, Place.run_append, Place.run_word hcs]
  simp [Place.run, Place.step, hc, hofList]

theorem IsBare.isQuotable {s : String} (h : IsBare s) : IsQuotable s :=
  Place.run_quotes (fun hmem => absurd (h.2 _ hmem) (by decide))
    (fun hmem => absurd (h.2 _ hmem) (by decide)) []

theorem IsQuotable.spells {s : String} (h : IsQuotable s) :
    Spells ("\"" ++ s ++ "\"") [.quoted s] := by
  intro c _
  have hbegins : begins '"' = ([], .quotes []) := by decide
  have hchars : ("\"" ++ s ++ "\"").toList ++ [c] = '"' :: (s.toList ++ ['"', c]) := by simp
  rw [hchars, Place.run, Place.step, hbegins, Place.run_append, h]
  simp [Place.run, Place.step]

/-- A text that is read as a whole between quotes may stand there. -/
theorem isQuotable_of_run {s : String} {rest : List Char} {ts : List Token}
    (h : ((Place.quotes []).run (s.toList ++ '"' :: rest)).1 = .quoted s :: ts) :
    IsQuotable s := by
  obtain hnil | ⟨pre, post, hsplit, hrun⟩ :=
    Place.exists_of_run_quotes (p := .quotes []) (s.toList ++ '"' :: rest) (.inl rfl)
  · rw [hnil] at h
    cases h
  · rw [hsplit, Place.run_append, hrun, Place.run, Place.step, if_pos rfl] at h
    obtain rfl : String.ofList pre = s := Token.quoted.inj (List.cons.inj h).1
    rw [IsQuotable, String.toList_ofList]
    exact hrun

theorem Spells.append {s t : String} {ts us : List Token} (hs : Spells s ts) (ht : Spells t us) :
    Spells (s ++ " " ++ t) (ts ++ us) := by
  intro c hc
  have hchars : (s ++ " " ++ t).toList ++ [c] = (s.toList ++ [' ']) ++ (t.toList ++ [c]) := by
    simp
  have hspace : begins ' ' = ([], .between) := by decide
  rw [hchars, Place.run_append, hs ' ' (by decide), hspace, ht c hc]
  simp

theorem spells_pair {v w : String} (hv : IsBare v) (hw : IsBare w) :
    Spells (v ++ " " ++ w) [.word v, .word w] :=
  hv.spells.append hw.spells

/-- Words with a space between them. -/
theorem spells_inLine {w : String} {ws : List String} (h : ∀ v ∈ w :: ws, IsBare v) :
    Spells (inLine (w :: ws)) ((w :: ws).map .word) := by
  induction ws generalizing w with
  | nil => simpa [inLine, Text.behindSpaces] using (h w List.mem_cons_self).spells
  | cons v ws ih =>
    obtain ⟨hw, hws⟩ := List.forall_mem_cons.mp h
    have hline : inLine (w :: v :: ws) = w ++ " " ++ inLine (v :: ws) := by
      simp [inLine, Text.behindSpaces_cons, String.append_assoc]
    rw [hline]
    exact hw.spells.append (ih hws)

/-! ## Lines -/

/-- Lines that are read as these tokens. -/
def Reads (ls : List String) (ts : List Token) : Prop :=
  Place.between.run (unlines ls).toList = (ts, .between)

theorem reads_nil : Reads [] [] := by
  rfl

theorem Reads.append {ls ms : List String} {ts us : List Token} (hls : Reads ls ts)
    (hms : Reads ms us) : Reads (ls ++ ms) (ts ++ us) := by
  have hchars : (unlines (ls ++ ms)).toList = (unlines ls).toList ++ (unlines ms).toList := by
    simp [Text.toList_unlines]
  rw [Reads, hchars, Place.run_append, hls, hms]

theorem Reads.flatMap {α : Type} {xs : List α} {f : α → List String} {g : α → List Token}
    (h : ∀ x ∈ xs, Reads (f x) (g x)) : Reads (xs.flatMap f) (xs.flatMap g) := by
  induction xs with
  | nil => exact reads_nil
  | cons x xs ih =>
    obtain ⟨hx, hxs⟩ := List.forall_mem_cons.mp h
    rw [List.flatMap_cons, List.flatMap_cons]
    exact hx.append (ih hxs)

theorem Spells.reads_statement {s : String} {ts : List Token} (h : Spells s ts) :
    Reads [s ++ ";"] (ts ++ [.sign ';']) := by
  have hchars : (unlines [s ++ ";"]).toList = (s.toList ++ [';']) ++ ['\n'] := by
    simp [Text.toList_unlines]
  have hsign : begins ';' = ([.sign ';'], .between) := by decide
  have hbreak : Place.between.run ['\n'] = ([], .between) := by decide
  rw [Reads, hchars, Place.run_append, h ';' (by decide), hsign, hbreak, List.append_nil]

/-- Spaces in front of a line are not read. -/
theorem Reads.indented {s : String} {ts : List Token} (h : Reads [s] ts) :
    Reads ["    " ++ s] ts := by
  have hchars : (unlines ["    " ++ s]).toList = [' ', ' ', ' ', ' '] ++ (unlines [s]).toList := by
    simp [Text.toList_unlines]
  have hspaces : Place.between.run [' ', ' ', ' ', ' '] = ([], .between) := by decide
  rw [Reads, hchars, Place.run_append, hspaces, h, List.nil_append]

theorem reads_comment {s : String} (h : IsLine s) : Reads ["#" ++ s] [] := by
  have hchars : (unlines ["#" ++ s]).toList = '#' :: (s.toList ++ ['\n']) := by
    simp [Text.toList_unlines]
  have hbegins : begins '#' = ([], .comment) := by decide
  have hbreak : Place.comment.run ['\n'] = ([], .between) := by decide
  rw [Reads, hchars, Place.run, Place.step, hbegins, Place.run_append, Place.run_comment h, hbreak]
  rfl

theorem Spells.reads_head {s : String} {ts : List Token} (h : Spells s ts) :
    Reads [s ++ " \x7b"] (ts ++ [.sign '\x7b']) := by
  have hchars : (unlines [s ++ " \x7b"]).toList = (s.toList ++ [' ']) ++ ['\x7b', '\n'] := by
    simp [Text.toList_unlines]
  have hspace : begins ' ' = ([], .between) := by decide
  have hopen : Place.between.run ['\x7b', '\n'] = ([.sign '\x7b'], .between) := by decide
  rw [Reads, hchars, Place.run_append, h ' ' (by decide), hspace, hopen, List.append_nil]

/-- A block is read as its head and its statements. -/
theorem reads_declaration {head : String} {options : List String} {ts : List Token}
    {body : List (List Token)} (hhead : Spells head ts)
    (hoptions : List.Forall₂ Spells options body) :
    Reads (declaration head options) (Item.block ts body).tokens := by
  have hbody : Reads (options.map fun o => "    " ++ o ++ ";")
      (body.flatMap (· ++ [.sign ';'])) := by
    induction hoptions with
    | nil => exact reads_nil
    | @cons o words options body ho _ ih =>
      have hline : Reads ["    " ++ o ++ ";"] (words ++ [.sign ';']) := by
        rw [String.append_assoc]
        exact ho.reads_statement.indented
      exact hline.append ih
  have hempty : Reads [""] [] := by unfold Reads; decide
  have hclose : Reads ["\x7d"] [.sign '\x7d'] := by unfold Reads; decide
  have hall := ((hempty.append hhead.reads_head).append hbody).append hclose
  simpa [declaration, Item.tokens] using hall

end LeaseFile

/-! ## Words of configurations -/

namespace LeaseFile

theorem isBareChar_of_isAlphanum {c : Char} (h : c.isAlphanum = true) : isBareChar c = true := by
  simp [isBareChar, h]

theorem IsBare.isWord {s : String} (h : IsBare s) : Text.IsWord s :=
  ⟨h.1, fun c hc => isBlank_of_isBareChar (h.2 c hc)⟩

theorem IsBare.append {s t : String} (hs : IsBare s) (ht : ∀ c ∈ t.toList, isBareChar c = true) :
    IsBare (s ++ t) := by
  obtain ⟨hne, hbare⟩ := hs
  rw [IsBare, String.toList_append]
  exact ⟨List.append_ne_nil_of_left_ne_nil hne _, List.forall_mem_append.mpr ⟨hbare, ht⟩⟩

theorem isBare_of_isLabel {label : String} (h : isLabel label = true) : IsBare label := by
  simp only [isLabel, Bool.and_eq_true, List.all_eq_true] at h
  refine ⟨fun hempty => ?_, fun c hc => ?_⟩
  · rw [String.toList_eq_nil_iff] at hempty
    simp [hempty] at h
  · have hchar := h.1.2 c hc
    simp only [isLabelChar, Bool.or_eq_true, decide_eq_true_eq] at hchar
    rcases hchar with (hchar | rfl) | rfl
    · exact isBareChar_of_isAlphanum hchar
    · decide
    · decide

theorem isBare_joinWith {sep w : String} {ws : List String}
    (hsep : sep.toList.all isBareChar = true) (h : ∀ v ∈ w :: ws, IsBare v) :
    IsBare (Text.joinWith sep (w :: ws)) := by
  rw [List.all_eq_true] at hsep
  refine ⟨(Text.isWord_joinWith (fun c hc => isBlank_of_isBareChar (hsep c hc))
    fun v hv => (h v hv).isWord).1, fun c hc => ?_⟩
  rw [Text.joinWith, String.toList_intercalate] at hc
  rcases mem_intercalate hc with hc | ⟨piece, hpiece, hc⟩
  · exact hsep c hc
  · obtain ⟨v, hv, rfl⟩ := List.mem_map.mp hpiece
    exact (h v hv).2 c hc

theorem isBare_address (a : Address) : IsBare a.text := by
  have hoctets : ∀ v ∈ a.octets.map toString, IsBare v := by
    intro v hv
    obtain ⟨n, -, rfl⟩ := List.mem_map.mp hv
    refine ⟨(Text.isWord_toString n).1, fun c hc => ?_⟩
    have hdigit := Text.Chars.isDigit_of_mem_toString hc
    exact isBareChar_of_isAlphanum (by simp [Char.isAlphanum, hdigit])
  exact isBare_joinWith (by decide) hoctets

theorem isBare_mac (m : Mac) : IsBare m.text := by
  have hdigit : ∀ n < 16, isBareChar (Mac.digitOf n) = true := by decide
  have hoctets : ∀ v ∈ m.octets.map fun o => Digest.hex [o], IsBare v := by
    intro v hv
    obtain ⟨o, -, rfl⟩ := List.mem_map.mp hv
    have ho := o.toNat_lt
    have hchars : (Digest.hex [o]).toList = _ := Mac.digitsOf_eq o
    rw [IsBare, hchars]
    refine ⟨List.cons_ne_nil _ _, ?_⟩
    simp only [List.forall_mem_cons]
    exact ⟨hdigit _ (by omega), hdigit _ (by omega), nofun⟩
  exact isBare_joinWith (by decide) hoctets

end LeaseFile

open LeaseFile

/-! ## Configurations -/

/-- The options of a subnet, word by word. -/
def LeaseSubnet.options (s : LeaseSubnet) : List (List String) :=
  [["option", "routers", s.gateway.text], ["option", "domain-name-servers", s.gateway.text],
    ["option", "broadcast-address", s.net.broadcast.text]] ++
  s.range.toList.map fun r => ["range", r.1.text, r.2.text]

/-- A subnet, as a block. -/
def LeaseSubnet.item (s : LeaseSubnet) : Item :=
  .block (["subnet", s.net.network.text, "netmask", s.net.netmask.text].map .word)
    (s.options.map fun ws => ws.map .word)

/-- A reservation, as a block. -/
def reservationItem (l : Lease) : Item :=
  .block (["host", reservationName l].map .word)
    [["hardware", "ethernet", l.mac.text].map .word, ["fixed-address", l.address.text].map .word,
      ["option", "host-name"].map .word ++ [.quoted l.label]]

theorem LeaseSubnet.lines_eq (s : LeaseSubnet) :
    s.lines = declaration
      (inLine ["subnet", s.net.network.text, "netmask", s.net.netmask.text])
      (s.options.map inLine) := by
  have hhead : s!"subnet {s.net.network} netmask {s.net.netmask}" =
      inLine ["subnet", s.net.network.text, "netmask", s.net.netmask.text] := by
    rw [← String.toList_inj, Text.toList_inLine_cons]
    simp [toString]
  have hoption : ∀ (name : String) (a : Address),
      "option " ++ name ++ " " ++ a.text = inLine ["option", name, a.text] := by
    intro name a
    rw [← String.toList_inj, Text.toList_inLine_cons]
    simp
  have hrange : ∀ r : Address × Address,
      s!"range {r.1} {r.2}" = inLine ["range", r.1.text, r.2.text] := by
    intro r
    rw [← String.toList_inj, Text.toList_inLine_cons]
    simp [toString]
  rw [lines, hhead, options, List.map_append, List.map_map]
  refine congrArg _ (congrArg₂ _ ?_ (List.map_congr_left fun r _ => hrange r))
  simp only [List.map_cons, List.map_nil, ← hoption]
  rfl

theorem LeaseSubnet.reads (s : LeaseSubnet) : Reads s.lines s.item.tokens := by
  have hoption : ∀ ws ∈ s.options, Spells (inLine ws) (ws.map .word) := by
    simp only [options, List.mem_append, List.mem_cons, List.mem_map, List.not_mem_nil, or_false]
    rintro ws ((rfl | rfl | rfl) | ⟨r, -, rfl⟩)
    all_goals
      refine spells_inLine ?_
      simp only [List.forall_mem_cons]
    · exact ⟨by decide, by decide, isBare_address _, nofun⟩
    · exact ⟨by decide, by decide, isBare_address _, nofun⟩
    · exact ⟨by decide, by decide, isBare_address _, nofun⟩
    · exact ⟨by decide, isBare_address _, isBare_address _, nofun⟩
  rw [lines_eq]
  refine reads_declaration (spells_inLine ?_) ?_
  · simp only [List.forall_mem_cons]
    exact ⟨by decide, isBare_address _, by decide, isBare_address _, nofun⟩
  · rw [List.forall₂_map_left_iff, List.forall₂_map_right_iff]
    exact List.forall₂_same.mpr hoption

theorem reads_reservationLines {l : Lease} (hlabel : LeaseFile.IsBare l.label)
    (hiface : LeaseFile.IsBare l.iface) :
    Reads (reservationLines l) (reservationItem l).tokens := by
  have hword : LeaseFile.IsBare (reservationName l) :=
    (hlabel.append (List.all_eq_true.mp (by decide))).append hiface.2
  rw [reservationLines_eq]
  refine reads_declaration ?_ (.cons ?_ (.cons ?_ (.cons ?_ .nil)))
  · exact spells_pair (v := "host") (by decide) hword
  · have hwords : Spells ("hardware" ++ " " ++ "ethernet") [.word "hardware", .word "ethernet"] :=
      spells_pair (by decide) (by decide)
    exact hwords.append (isBare_mac l.mac).spells
  · exact spells_pair (v := "fixed-address") (by decide) (isBare_address l.address)
  · have hwords : Spells ("option" ++ " " ++ "host-name") [.word "option", .word "host-name"] :=
      spells_pair (by decide) (by decide)
    have hname := hwords.append hlabel.isQuotable.spells
    have hline : "option" ++ " " ++ "host-name" ++ " " ++ ("\"" ++ l.label ++ "\"") =
        "option host-name \"" ++ l.label ++ "\"" := by
      rw [← String.toList_inj]
      simp
    rwa [hline] at hname

/-- The lines with the terms of every lease. -/
def termLines : List String :=
  ["default-lease-time 3600;", "max-lease-time 86400;", "authoritative;"]

/-- The terms of every lease. -/
def termItems : List Item :=
  [.statement (["default-lease-time", "3600"].map .word),
    .statement (["max-lease-time", "86400"].map .word), .statement (["authoritative"].map .word)]

theorem reads_terms : Reads termLines (termItems.flatMap Item.tokens) := by
  unfold Reads
  decide

/-- The first line of a file. -/
theorem reads_title {title : String} (htitle : IsLine title) :
    Reads [s!"# {title}: generated by netconverge"] [] := by
  have hline : s!"# {title}: generated by netconverge" =
      "#" ++ (" " ++ title ++ ": generated by netconverge") := by
    rw [← String.toList_inj]
    simp [toString]
  rw [hline]
  exact reads_comment (Text.isLine_append (Text.isLine_append (by decide) htitle) (by decide))

namespace LeaseConfig

/-- The line with the domain. -/
def domainLine (c : LeaseConfig) : String :=
  "option domain-name \"" ++ c.domain ++ "\";"

/-- The statement with the domain. -/
def domainItem (c : LeaseConfig) : Item :=
  .statement (["option", "domain-name"].map .word ++ [.quoted c.domain])

/-- What stands behind the domain. -/
def bodyItems (c : LeaseConfig) : List Item :=
  termItems ++ c.subnets.map LeaseSubnet.item ++ c.reservations.map reservationItem

/-- A configuration as its statements and blocks. -/
def items (c : LeaseConfig) : List Item :=
  c.domainItem :: c.bodyItems

/-- A configuration whose names are words. -/
structure IsBare (c : LeaseConfig) : Prop where
  title : IsLine c.title
  labels : ∀ l ∈ c.reservations, LeaseFile.IsBare l.label
  ifaces : ∀ l ∈ c.reservations, LeaseFile.IsBare l.iface

variable {c : LeaseConfig}

theorem reads_domainLine (hdomain : IsQuotable c.domain) :
    Reads [c.domainLine] c.domainItem.tokens := by
  have hline : "option" ++ " " ++ "domain-name" ++ " " ++ ("\"" ++ c.domain ++ "\"") ++ ";" =
      c.domainLine := by
    change _ = "option domain-name \"" ++ c.domain ++ "\";"
    rw [← String.toList_inj]
    simp
  have hwords : Spells ("option" ++ " " ++ "domain-name") [.word "option", .word "domain-name"] :=
    spells_pair (by decide) (by decide)
  rw [← hline]
  exact (hwords.append hdomain.spells).reads_statement

theorem hasNoSigns_of_mem_bodyItems (c : LeaseConfig) : ∀ i ∈ c.bodyItems, i.HasNoSigns := by
  have hwords : ∀ ws : List String, ∀ t ∈ ws.map Token.word, t.isSign = false := by
    intro ws t ht
    obtain ⟨w, -, rfl⟩ := List.mem_map.mp ht
    rfl
  intro i hi
  simp only [bodyItems, termItems, List.mem_append, List.mem_cons, List.mem_map, List.not_mem_nil,
    or_false] at hi
  rcases hi with ((rfl | rfl | rfl) | ⟨s, -, rfl⟩) | ⟨l, -, rfl⟩
  · exact hwords _
  · exact hwords _
  · exact hwords _
  · refine ⟨hwords _, fun words h => ?_⟩
    obtain ⟨ws, -, rfl⟩ := List.mem_map.mp h
    exact hwords ws
  · refine ⟨hwords _, ?_⟩
    simp [Token.isSign]

/-- A configuration is read as what its domain makes of the line that it stands on, followed by the
terms, the subnets and the reservations. -/
theorem items?_text_of_domain (hc : c.IsBare) {before : List Item}
    (hbefore : ∀ i ∈ before, i.HasNoSigns)
    (hdomain : Reads [c.domainLine] (before.flatMap Item.tokens)) :
    items? c.text = some (before ++ c.bodyItems) := by
  have hbody : Reads (termLines ++ c.subnets.flatMap LeaseSubnet.lines ++
      c.reservations.flatMap reservationLines) (c.bodyItems.flatMap Item.tokens) := by
    rw [bodyItems, List.flatMap_append, List.flatMap_append, List.flatMap_map, List.flatMap_map]
    refine (reads_terms.append (Reads.flatMap fun s _ => s.reads)).append
      (Reads.flatMap fun l hl => ?_)
    exact reads_reservationLines (hc.labels l hl) (hc.ifaces l hl)
  have hlines : c.lines = [s!"# {c.title}: generated by netconverge"] ++ ([c.domainLine] ++
      (termLines ++ c.subnets.flatMap LeaseSubnet.lines ++
        c.reservations.flatMap reservationLines)) := rfl
  have hread : Reads c.lines ((before ++ c.bodyItems).flatMap Item.tokens) := by
    rw [hlines, List.flatMap_append]
    exact (reads_title hc.title).append (hdomain.append hbody)
  have htext : c.text = unlines c.lines := rfl
  rw [items?, tokens?, htext, hread]
  exact (congrArg itemsOf? (List.append_nil _)).trans
    (itemsOf?_tokens (List.forall_mem_append.mpr ⟨hbefore, c.hasNoSigns_of_mem_bodyItems⟩))

/-- A configuration is read as its statements and blocks exactly if its domain may stand between
quotes. -/
theorem items?_text_iff (hc : c.IsBare) : items? c.text = some c.items ↔ IsQuotable c.domain := by
  constructor
  · intro h
    obtain ⟨ts, hts, hitems⟩ := Option.bind_eq_some_iff.mp h
    obtain ⟨more, hmore, rfl⟩ := Option.map_eq_some_iff.mp hts
    have hread : c.items.flatMap Item.tokens = _ := flatMap_tokens_of_itemsOf? hitems
    obtain ⟨us, hus⟩ : ∃ us, c.items.flatMap Item.tokens =
        .word "option" :: .word "domain-name" :: .quoted c.domain :: us := ⟨_, rfl⟩
    obtain ⟨rest, hchars⟩ : ∃ rest, c.text.toList =
        (unlines [s!"# {c.title}: generated by netconverge"]).toList ++
          ("option domain-name \"".toList ++ (c.domain.toList ++ '"' :: rest)) :=
      ⟨(";\n" ++ unlines (termLines ++ c.subnets.flatMap LeaseSubnet.lines ++
        c.reservations.flatMap reservationLines)).toList, by
          simp [text, termLines, Text.toList_unlines]⟩
    have hname : Place.between.run "option domain-name \"".toList =
        ([.word "option", .word "domain-name"], .quotes []) := by decide
    rw [hus, hchars, Place.run_append, reads_title hc.title, Place.run_append, hname] at hread
    simp only [List.nil_append, List.cons_append, List.cons.injEq, true_and] at hread
    rcases List.cons_eq_append_iff.mp hread with ⟨-, hfirst⟩ | ⟨ts, hts, -⟩
    -- What a file ends with is never quoted.
    · rw [hfirst] at hmore
      cases hplace : (Place.between.run c.text.toList).2 <;> simp [hplace, Place.finish?] at hmore
    · exact isQuotable_of_run hts
  · intro hdomain
    refine items?_text_of_domain hc (List.forall_mem_singleton.mpr ?_) ?_
    · simp [domainItem, Item.HasNoSigns, Token.isSign]
    · rw [List.flatMap_singleton]
      exact reads_domainLine hdomain

/-- The hosts behind the domain are the reservations, one after the other. -/
theorem filterMap_bodyItems (c : LeaseConfig) :
    c.bodyItems.filterMap Item.host? = c.reservations.map fun l =>
      ⟨reservationName l, l.mac.text, l.address.text⟩ := by
  have hsubnets : (c.subnets.map LeaseSubnet.item).filterMap Item.host? = [] := by
    rw [List.filterMap_map, List.filterMap_eq_nil_iff]
    exact fun _ _ => rfl
  have hreservations : (c.reservations.map reservationItem).filterMap Item.host? =
      c.reservations.map fun l => ⟨reservationName l, l.mac.text, l.address.text⟩ := by
    rw [List.filterMap_map, ← List.filterMap_eq_map]
    exact List.filterMap_congr fun _ _ => rfl
  rw [bodyItems, List.filterMap_append, List.filterMap_append, hsubnets, hreservations]
  rfl

theorem hosts?_text (hc : c.IsBare) (hdomain : IsQuotable c.domain) :
    hosts? c.text = some (c.reservations.map fun l =>
      ⟨reservationName l, l.mac.text, l.address.text⟩) := by
  rw [hosts?, (items?_text_iff hc).mpr hdomain, Option.map_some, ← filterMap_bodyItems]
  rfl

end LeaseConfig

end Provision

end NetworkCompiler
