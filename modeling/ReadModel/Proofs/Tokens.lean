import Mathlib.Data.List.SplitBy
import ReadModel.Database.Text

/-!
Statements as they are read.

The text of a statement is read as `sqlTokens`: a run of characters of words, a run of signs of comparison,
or any other character by itself, but for blanks. Fragments are read as `SqlToken`s, among which a value
is a slot; where no word runs over the border of two fragments, the tokens of the text are those of the
fragments, with the marks of the values in order (`Fragment.tokens_render`).
-/

namespace ReadModel

theorem map_intercalate {α β : Type} (f : α → β) (separator : List α) (lists : List (List α)) :
    (separator.intercalate lists).map f = (separator.map f).intercalate (lists.map (·.map f)) := by
  induction lists with
  | nil => rfl
  | cons first rest ih => cases rest <;> simp_all

theorem intercalate_cons {α : Type} (separator first : List α) (rest : List (List α)) :
    separator.intercalate (first :: rest) = first ++ rest.flatMap (separator ++ ·) := by
  induction rest generalizing first with
  | nil => simp
  | cons second rest ih => rw [List.intercalate_cons_cons, ih]; simp

theorem mem_intercalate {α : Type} {a : α} {separator : List α} {lists : List (List α)}
    (here : a ∈ separator.intercalate lists) : a ∈ separator ∨ ∃ list ∈ lists, a ∈ list := by
  induction lists with
  | nil => cases here
  | cons first rest ih =>
    cases rest with
    | nil => exact .inr ⟨first, List.mem_cons_self .., by simpa using here⟩
    | cons second rest =>
      rw [List.intercalate_cons_cons, List.append_assoc, List.mem_append, List.mem_append] at here
      rcases here with inFirst | inSeparator | inRest
      · exact .inr ⟨first, List.mem_cons_self .., inFirst⟩
      · exact .inl inSeparator
      · refine (ih inRest).imp id fun ⟨list, member, inList⟩ => ?_
        exact ⟨list, List.mem_cons_of_mem _ member, inList⟩

theorem forall_mem_intercalate {α : Type} {p : α → Prop} {separator : List α}
    {lists : List (List α)} (inSeparator : ∀ a ∈ separator, p a)
    (each : ∀ list ∈ lists, ∀ a ∈ list, p a) : ∀ a ∈ separator.intercalate lists, p a := by
  intro a here
  rcases mem_intercalate here with separates | ⟨list, member, inList⟩
  · exact inSeparator a separates
  · exact each list member a inList

/-- Whether a character belongs to words. -/
def isWordChar (c : Char) : Bool := c.isAlphanum || c == '_' || c == '.' || c == '$'

/-- Whether a character belongs to signs of comparison. -/
def isSignChar (c : Char) : Bool := c == '<' || c == '>' || c == '='

/-- Whether a character is a token by itself. -/
def isLoose (c : Char) : Bool := !isWordChar c && !isSignChar c

/-- Whether a character belongs to the token of the one before it. -/
def joins (a b : Char) : Bool := (isWordChar a && isWordChar b) || (isSignChar a && isSignChar b)

/-- The tokens of a text. -/
def sqlTokens (text : String) : List String :=
  ((text.toList.splitBy joins).filter (· ≠ [' '])).map String.ofList

/-- What stands for a value in the text of a statement. -/
def mark (n : Nat) : String := "$" ++ toString n

/-- Whether a text begins with a token by itself. -/
def startsLoose (text : String) : Bool := text.toList.head?.any isLoose

/-- Whether a text ends in a token by itself. -/
def endsLoose (text : String) : Bool := text.toList.getLast?.any isLoose

theorem startsLoose_append {s : String} (t : String) (loose : startsLoose s = true) :
    startsLoose (s ++ t) = true := by
  simp only [startsLoose, Option.any_eq_true] at loose ⊢
  obtain ⟨c, head, loose⟩ := loose
  exact ⟨c, by rw [String.toList_append, List.head?_append, head, Option.some_or], loose⟩

theorem endsLoose_append (s : String) {t : String} (loose : endsLoose t = true) :
    endsLoose (s ++ t) = true := by
  simp only [endsLoose, Option.any_eq_true] at loose ⊢
  obtain ⟨c, last, loose⟩ := loose
  exact ⟨c, by rw [String.toList_append, List.getLast?_append, last, Option.some_or], loose⟩

theorem sqlTokens_append {s t : String}
    (apart : ∀ a ∈ s.toList.getLast?, ∀ b ∈ t.toList.head?, joins a b = false) :
    sqlTokens (s ++ t) = sqlTokens s ++ sqlTokens t := by
  simp only [sqlTokens, String.toList_append, List.splitBy_append apart, List.filter_append,
    List.map_append]

/-- No token runs over a border at which a text ends in a token by itself, or begins with one. -/
theorem sqlTokens_append_of_loose {s t : String} (loose : endsLoose s = true ∨ startsLoose t = true) :
    sqlTokens (s ++ t) = sqlTokens s ++ sqlTokens t := by
  refine sqlTokens_append fun a last b head => ?_
  simp only [endsLoose, startsLoose, Option.mem_def.mp last, Option.mem_def.mp head] at loose
  rcases loose with loose | loose <;> simp_all [isLoose, joins]

/-- A text between tokens by themselves has tokens of its own. -/
theorem sqlTokens_between {front back : String} (text : String) (before : endsLoose front = true)
    (behind : startsLoose back = true) :
    sqlTokens (front ++ text ++ back) = sqlTokens front ++ sqlTokens text ++ sqlTokens back := by
  rw [sqlTokens_append_of_loose (.inr behind), sqlTokens_append_of_loose (.inl before)]

/-- Texts with such a separator between them have tokens of their own. -/
theorem sqlTokens_intercalate {separator : String} (texts : List String)
    (starts : startsLoose separator = true) (ends : endsLoose separator = true) :
    sqlTokens (separator.intercalate texts) = (sqlTokens separator).intercalate (texts.map sqlTokens) := by
  induction texts with
  | nil => rfl
  | cons first rest ih =>
    cases rest with
    | nil => simp
    | cons second rest =>
      rw [String.intercalate_cons_cons, sqlTokens_append_of_loose (.inl (endsLoose_append _ ends)),
        sqlTokens_append_of_loose (.inr starts), ih]
      simp

/-- A text of characters of words is one token. -/
theorem sqlTokens_of_word {s : String} (inhabited : s.toList ≠ [])
    (word : ∀ c ∈ s.toList, isWordChar c = true) : sqlTokens s = [s] := by
  have chain : s.toList.IsChain fun a b => joins a b = true := by
    refine (List.pairwise_of_forall_mem_list fun a inA b inB => ?_).isChain
    simp [joins, word a inA, word b inB]
  have nonblank : s.toList ≠ [' '] := by
    intro blank
    have := word ' ' (by simp [blank])
    exact absurd this (by decide)
  simp [sqlTokens, List.splitBy_of_isChain inhabited chain, nonblank]

theorem isWordChar_of_isDigit {c : Char} (digit : c.isDigit = true) : isWordChar c = true := by
  simp [isWordChar, Char.isAlphanum, digit]

theorem toList_mark (n : Nat) : (mark n).toList = '$' :: Nat.toDigits 10 n := by
  simp [mark, String.toList_append, ← Nat.toList_repr, toString]

theorem isDigit_of_mem_mark {n : Nat} {c : Char} (here : c ∈ (mark n).toList) :
    c = '$' ∨ c.isDigit = true := by
  rw [toList_mark, List.mem_cons] at here
  exact here.imp id (Nat.isDigit_of_mem_toDigits (by decide) (by decide))

theorem isWordChar_of_mem_mark {n : Nat} {c : Char} (here : c ∈ (mark n).toList) :
    isWordChar c = true := by
  rcases isDigit_of_mem_mark here with rfl | digit
  · rfl
  · exact isWordChar_of_isDigit digit

theorem sqlTokens_mark (n : Nat) : sqlTokens (mark n) = [mark n] :=
  sqlTokens_of_word (by simp [toList_mark]) fun _ => isWordChar_of_mem_mark

/-- A token of a statement of which the values have no numbers yet. -/
inductive SqlToken where
  | word (s : String)
  | slot
  deriving DecidableEq

namespace SqlToken

/-- The tokens of a text without values. -/
def ofText (text : String) : List SqlToken := (sqlTokens text).map word

/-- The tokens of the text in which the slots are numbered from `next` on. -/
def spell (next : Nat) : List SqlToken → List String
  | [] => []
  | word s :: rest => s :: spell next rest
  | slot :: rest => mark next :: spell (next + 1) rest

/-- Lists of tokens with commas between them. -/
def commas (lists : List (List SqlToken)) : List SqlToken := [word ","].intercalate lists

/-- How many values there are. -/
def slots (list : List SqlToken) : Nat := list.count slot

theorem ofText_append {s t : String} (loose : endsLoose s = true ∨ startsLoose t = true) :
    ofText (s ++ t) = ofText s ++ ofText t := by
  simp only [ofText, sqlTokens_append_of_loose loose, List.map_append]

theorem ofText_between {front back : String} (text : String) (before : endsLoose front = true)
    (behind : startsLoose back = true) :
    ofText (front ++ text ++ back) = ofText front ++ ofText text ++ ofText back := by
  simp only [ofText, sqlTokens_between text before behind, List.map_append]

theorem ofText_intercalate {separator : String} (texts : List String)
    (starts : startsLoose separator = true) (ends : endsLoose separator = true) :
    ofText (separator.intercalate texts) = (ofText separator).intercalate (texts.map ofText) := by
  rw [ofText, sqlTokens_intercalate texts starts ends, map_intercalate, List.map_map]
  rfl

theorem slots_words (words : List String) : slots (words.map word) = 0 := by
  simp [slots, List.count_eq_zero]

theorem spell_words (next : Nat) (words : List String) (rest : List SqlToken) :
    spell next (words.map word ++ rest) = words ++ spell next rest := by
  induction words with
  | nil => rfl
  | cons s words ih => simp only [List.map_cons, List.cons_append, spell, ih]

/-- A token has no dollar sign of its own. -/
def Unmarked : SqlToken → Prop
  | word s => '$' ∉ s.toList
  | slot => True

/-- The marks in the text are those of the slots, in order, if no word has a dollar sign. -/
theorem filter_spell (next : Nat) {list : List SqlToken} (plain : ∀ token ∈ list, token.Unmarked) :
    (spell next list).filter (fun s => decide ('$' ∈ s.toList)) =
      (List.range' next (slots list)).map mark := by
  induction list generalizing next with
  | nil => rfl
  | cons first rest ih =>
    have ⟨here, others⟩ := List.forall_mem_cons.mp plain
    have after := fun next => ih next others
    cases first with
    | word s => simp_all [spell, slots, Unmarked]
    | slot => simp [spell, after, slots, toList_mark, List.range'_succ]

end SqlToken

namespace Fragment

/-- The tokens of a fragment. -/
def tokens : Fragment → List SqlToken
  | .text s => SqlToken.ofText s
  | .value _ => [.slot]

@[simp]
theorem tokens_text (s : String) : (Fragment.text s).tokens = SqlToken.ofText s := rfl

@[simp]
theorem tokens_value (v : SqlParam) : (Fragment.value v).tokens = [.slot] := rfl

/-- Whether a fragment begins with a token by itself. -/
def startsLoose : Fragment → Bool
  | .text s => ReadModel.startsLoose s
  | .value _ => false

/-- Whether a fragment ends in a token by itself. -/
def endsLoose : Fragment → Bool
  | .text s => ReadModel.endsLoose s
  | .value _ => false

/-- No token runs over the border of two fragments. -/
def Apart (a b : Fragment) : Prop := a.endsLoose = true ∨ b.startsLoose = true

theorem render_startsLoose {first : Fragment} (next : Nat) (rest : List Fragment)
    (loose : first.startsLoose = true) :
    ReadModel.startsLoose (render next (first :: rest)) = true := by
  cases first with
  | text s => exact startsLoose_append _ loose
  | value v => cases loose

/-- Where no token runs over a border, the text reads as the fragments do. -/
theorem tokens_render {fragments : List Fragment} (apart : fragments.IsChain Apart) (next : Nat) :
    sqlTokens (render next fragments) = SqlToken.spell next (fragments.flatMap tokens) := by
  induction fragments generalizing next with
  | nil => rfl
  | cons first rest ih =>
    have after := ih apart.of_cons
    have border (s : String) (ends : first.endsLoose = true → ReadModel.endsLoose s = true)
        (number : Nat) : sqlTokens (s ++ render number rest) =
          sqlTokens s ++ SqlToken.spell number (rest.flatMap tokens) := by
      cases rest with
      | nil => simp [render, SqlToken.spell]
      | cons second rest =>
        rw [← after number]
        refine sqlTokens_append_of_loose (apart.rel.imp ends ?_)
        exact render_startsLoose number rest
    cases first with
    | text s => rw [render, border s id, List.flatMap_cons, tokens, SqlToken.ofText,
        SqlToken.spell_words]
    | value v =>
      change sqlTokens (mark next ++ render (next + 1) rest) = _
      rw [border (mark next) (fun loose => nomatch loose), sqlTokens_mark]
      rfl

theorem isChain_append {front back : List Fragment} (inFront : front.IsChain Apart)
    (inBack : back.IsChain Apart)
    (border : (∀ a ∈ front.getLast?, a.endsLoose = true) ∨
      ∀ b ∈ back.head?, b.startsLoose = true) :
    (front ++ back).IsChain Apart := by
  refine List.isChain_append.mpr ⟨inFront, inBack, fun a last b head => ?_⟩
  exact border.imp (· a last) (· b head)

/-- A separator with loose ends keeps what it separates apart. -/
theorem isChain_separated {separator : String} {lists : List (List Fragment)}
    (starts : ReadModel.startsLoose separator = true) (ends : ReadModel.endsLoose separator = true)
    (each : ∀ list ∈ lists, list.IsChain Apart) : (separated separator lists).IsChain Apart := by
  induction lists with
  | nil => exact .nil
  | cons list rest ih =>
    have here := each list (List.mem_cons_self ..)
    have after := ih fun other inRest => each other (List.mem_cons_of_mem _ inRest)
    cases rest with
    | nil => exact here
    | cons next rest =>
      refine isChain_append here (isChain_append (.singleton _) after ?_) ?_
      · exact .inl fun a last => Option.mem_some.mp last ▸ ends
      · exact .inr fun b head => Option.mem_some.mp head ▸ starts

/-- There is a slot for each value. -/
theorem slots_tokens (fragments : List Fragment) :
    SqlToken.slots (fragments.flatMap tokens) = (params fragments).length := by
  induction fragments with
  | nil => rfl
  | cons first rest ih =>
    rw [List.flatMap_cons, SqlToken.slots, List.count_append]
    cases first with
    | text s =>
      have none := SqlToken.slots_words (sqlTokens s)
      rw [SqlToken.slots] at none ih
      rw [tokens, SqlToken.ofText, none, ih, params, Nat.zero_add]
    | value v =>
      rw [SqlToken.slots] at ih
      rw [tokens, List.count_singleton_self, ih, params, List.length_cons, Nat.add_comm]

theorem tokens_separated (separator : String) (lists : List (List Fragment)) :
    (separated separator lists).flatMap tokens =
      (SqlToken.ofText separator).intercalate (lists.map (·.flatMap tokens)) := by
  induction lists with
  | nil => rfl
  | cons list rest ih =>
    cases rest with
    | nil => simp [separated]
    | cons next rest =>
      simp [separated, List.flatMap_append, ih, tokens]

end Fragment

end ReadModel
