import ReadModel.Wire.Config

/-!
Readers of JSON values and what they read.

What a reader gives is of a kind (`Decoder.Gives`), and a reader gives back what was written of a
kind (`Decoder.Restores`). Both are closed under the ways in which readers are put together, so that
they are shown of a record by showing them of its fields.
-/

namespace ReadModel

theorem Except.bind_eq_ok_iff {ε α β : Type} {x : Except ε α} {f : α → Except ε β} {b : β} :
    (x >>= f) = .ok b ↔ ∃ a, x = .ok a ∧ f a = .ok b := by
  cases x with
  | error e => exact ⟨nofun, nofun⟩
  | ok a => exact ⟨fun result => ⟨a, rfl, result⟩, fun ⟨_, same, result⟩ => Except.ok.inj same ▸ result⟩

theorem Except.bind_ok {ε α β : Type} (a : α) (f : α → Except ε β) : (Except.ok a >>= f) = f a := rfl

theorem Except.ok_map {ε α β : Type} (a : α) (f : α → β) :
    (Except.ok a : Except ε α).map f = .ok (f a) := rfl

theorem Except.eq_ok_of_guard {ε α β : Type} {c : Prop} [Decidable c] {e : ε} {f : α → Except ε β}
    {x : Except ε β} {b : β} (result : (if c then Except.error e >>= f else x) = .ok b) : x = .ok b := by
  split at result
  next => cases result
  next => exact result

theorem Except.eq_ok_of_check {ε α β : Type} {c : Prop} [Decidable c] {e : ε} {f : α → Except ε β}
    {x : Except ε β} {b : β} (result : (if c then x else Except.error e >>= f) = .ok b) : x = .ok b := by
  split at result
  next => exact result
  next => cases result

theorem Except.ite_eq_ok_iff {ε α : Type} {c : Prop} [Decidable c] {a b : α} {e : ε} :
    (if c then Except.ok a else Except.error e) = .ok b ↔ c ∧ a = b := by
  split
  next holds => exact ⟨fun same => ⟨holds, Except.ok.inj same⟩, fun same => congrArg _ same.2⟩
  next fails => exact ⟨nofun, fun same => absurd same.1 fails⟩

theorem Except.exists_of_mem_mapM {ε α β : Type} {f : α → Except ε β} {items : List α}
    {results : List β} (all : items.mapM f = .ok results) {b : β} (here : b ∈ results) :
    ∃ a ∈ items, f a = .ok b := by
  induction items generalizing results with
  | nil => cases all; cases here
  | cons a items ih =>
    rw [List.mapM_cons] at all
    simp only [Except.bind_eq_ok_iff] at all
    obtain ⟨first, ok, rest, others, same⟩ := all
    cases same
    rcases List.mem_cons.mp here with rfl | later
    · exact ⟨a, List.mem_cons_self .., ok⟩
    · obtain ⟨a', member, ok'⟩ := ih others later
      exact ⟨a', List.mem_cons_of_mem _ member, ok'⟩

/-- A loop over what was made of some items, each of which comes out as what it was made of. -/
theorem Except.mapM_map_of_forall {ε α β : Type} {items : List α} {f : α → β} {g : β → Except ε α}
    (each : ∀ a ∈ items, g (f a) = .ok a) : (items.map f).mapM g = .ok items := by
  induction items with
  | nil => rfl
  | cons a items ih =>
    have first := each a (List.mem_cons_self ..)
    have others := ih fun b later => each b (List.mem_cons_of_mem _ later)
    rw [List.map_cons, List.mapM_cons, first, others]
    rfl

theorem Except.exists_of_map_eq_ok {ε α β : Type} {x : Except ε α} {f : α → β} {b : β}
    (result : x.map f = .ok b) : ∃ a, x = .ok a ∧ f a = b := by
  cases x with
  | error e => cases result
  | ok a => exact ⟨a, rfl, Except.ok.inj result⟩

theorem Dict.mem_of_find?_ofList {κ ν : Type} [DecidableEq κ] [KeyOrder κ]
    {entries : List (κ × ν)} {key : κ} {value : ν}
    (found : (Dict.ofList entries).find? key = some value) : (key, value) ∈ entries := by
  have folded (d : Dict κ ν) :
      (entries.foldl (fun d e => d.insert e.1 e.2) d).find? key = some value →
        d.find? key = some value ∨ (key, value) ∈ entries := by
    clear found
    induction entries generalizing d with
    | nil => exact .inl
    | cons e entries ih =>
      intro found
      rcases ih _ found with early | later
      · rw [Dict.find?_insert] at early
        split at early
        next same =>
          obtain rfl := Option.some.inj early
          exact .inr (same ▸ List.mem_cons_self ..)
        next => exact .inl early
      · exact .inr (List.mem_cons_of_mem _ later)
  exact (folded ∅ found).resolve_left (by simp)

section Listing

variable {κ ν : Type} [DecidableEq κ] [KeyOrder κ]

omit [KeyOrder κ] in
theorem lookup_eq_none_of_not_mem {key : κ} {entries : List (κ × ν)}
    (absent : key ∉ entries.map Prod.fst) : lookup key entries = none := by
  induction entries with
  | nil => rfl
  | cons e entries ih =>
    rw [List.map_cons, List.mem_cons, not_or] at absent
    rw [lookup, if_neg (Ne.symm absent.1)]
    exact ih absent.2

/-- A map out of entries with different keys gives each key its value. -/
theorem lookup_ofList {entries : List (κ × ν)} (distinct : (entries.map Prod.fst).Nodup) (key : κ) :
    lookup key (Dict.ofList entries).entries = lookup key entries := by
  have folded (d : Dict κ ν) : (entries.foldl (fun d e => d.insert e.1 e.2) d).find? key =
      (lookup key entries).or (d.find? key) := by
    induction entries generalizing d with
    | nil => rfl
    | cons e entries ih =>
      rw [List.map_cons, List.nodup_cons] at distinct
      rw [List.foldl_cons, ih distinct.2, Dict.find?_insert, lookup]
      split
      next same => rw [lookup_eq_none_of_not_mem (same ▸ distinct.1), Option.none_or, Option.some_or]
      next => rfl
  exact (folded ∅).trans Option.or_none

omit [DecidableEq κ] in
theorem Ascending.nodup {entries : List (κ × ν)} (ascending : Ascending entries) :
    (entries.map Prod.fst).Nodup :=
  List.pairwise_map.mpr (List.Pairwise.imp KeyOrder.ne_of_before ascending)

theorem entries_ofList {entries : List (κ × ν)} (ascending : Ascending entries) :
    (Dict.ofList entries).entries = entries :=
  (Dict.ofList entries).ascending.ext ascending (lookup_ofList ascending.nodup)

end Listing

theorem join_of_each {α : Type} {kind : α → Prop} {found : Option (Option α)}
    (each : ∀ o ∈ found, ∀ a ∈ o, kind a) : ∀ a ∈ found.join, kind a :=
  fun a here => each _ (Option.join_eq_some_iff.mp here) a rfl

theorem getD_of_each {α : Type} {kind : α → Prop} {found : Option α} {fallback : α}
    (each : ∀ a ∈ found, kind a) (otherwise : kind fallback) : kind (found.getD fallback) := by
  cases found with
  | none => exact otherwise
  | some a => exact each a rfl

namespace Decoder

/-- All that a reader gives is of a kind. -/
def Gives {α : Type} (read : Decoder α) (kind : α → Prop) : Prop := ∀ j a, read j = .ok a → kind a

variable {α : Type} {read : Decoder α} {kind : α → Prop}

theorem gives_whole {least most : Int} {name : String} :
    (whole least most name).Gives fun n => least ≤ n ∧ n ≤ most := by
  intro j n read
  unfold whole at read
  split at read
  next k =>
    split at read
    next bounds => exact Except.ok.inj read ▸ bounds
    next => cases read
  next => cases read

theorem gives_natural {count : Nat} {name : String} :
    Gives (fun j => (whole 0 (count - 1) name j).map Int.toNat) (· < count) := by
  intro j n result
  obtain ⟨m, read, rfl⟩ := Except.exists_of_map_eq_ok result
  have bounds := gives_whole j m read
  omega

theorem gives_unsigned64 : unsigned64.Gives (· < wordCount) := gives_natural

theorem gives_unsigned32 : unsigned32.Gives (· < halfWordCount) := gives_natural

theorem gives_size : size.Gives (· < wordCount) := gives_natural

theorem Gives.optional (gives : read.Gives kind) :
    (optional read).Gives fun found => ∀ a ∈ found, kind a := by
  intro j found result
  cases j with
  | null => cases result; nofun
  | _ =>
    obtain ⟨a, ok, rfl⟩ := Except.exists_of_map_eq_ok result
    exact fun b same => Option.some.inj same ▸ gives _ a ok

theorem Gives.present (gives : read.Gives kind) {name : String} {fields : List (String × Json)}
    {found : Option α} (result : present name read fields = .ok found) : ∀ a ∈ found, kind a := by
  unfold Decoder.present at result
  split at result
  next j _ =>
    obtain ⟨a, ok, rfl⟩ := Except.exists_of_map_eq_ok result
    exact fun b same => Option.some.inj same ▸ gives _ a ok
  next => cases result; nofun

theorem Gives.nextOr (gives : read.Gives kind) {fallback a : α} {items rest : List Json}
    (otherwise : kind fallback) (result : nextOr fallback read items = .ok (a, rest)) : kind a := by
  cases items with
  | nil => cases result; exact otherwise
  | cons j items =>
    obtain ⟨b, ok, same⟩ := Except.bind_eq_ok_iff.mp result
    cases same
    exact gives j a ok

theorem Gives.next (gives : read.Gives kind) {record : String} {position : Nat} {a : α}
    {items rest : List Json} (result : next record position read items = .ok (a, rest)) : kind a := by
  cases items with
  | nil => cases result
  | cons j items =>
    obtain ⟨b, ok, same⟩ := Except.bind_eq_ok_iff.mp result
    cases same
    exact gives j a ok

/-- A field that a record insists on. -/
theorem Gives.required (gives : read.Gives kind) {name : String} {fields : List (String × Json)}
    {found : Option α} {a : α} (result : Decoder.present name read fields = .ok found)
    (insisted : require name found = .ok a) : kind a := by
  cases found with
  | none => cases insisted
  | some b => exact gives.present result a (congrArg some (Except.ok.inj insisted))

theorem Gives.list (gives : read.Gives kind) : (list read).Gives fun as => ∀ a ∈ as, kind a := by
  intro j as result
  cases j with
  | list items =>
    change all read items = .ok as at result
    induction items generalizing as with
    | nil => cases result; nofun
    | cons j items ih =>
      obtain ⟨a, first, result⟩ := Except.bind_eq_ok_iff.mp result
      obtain ⟨rest, others, result⟩ := Except.bind_eq_ok_iff.mp result
      cases result
      intro b here
      rcases List.mem_cons.mp here with rfl | later
      · exact gives j b first
      · exact ih rest others b later
  | _ => cases result

/-- The values of a dictionary are of a kind if those of its fields are. -/
theorem Gives.dict {ν : Type} {read : Decoder ν} {kind : ν → Prop} (gives : read.Gives kind) :
    (dict read).Gives fun d => ∀ name value, d.find? name = some value → kind value := by
  intro j d result
  unfold Decoder.dict at result
  split at result
  case h_1 fields =>
    obtain ⟨values, all, result⟩ := Except.bind_eq_ok_iff.mp result
    cases result
    intro name value found
    obtain ⟨field, -, readField⟩ := Except.exists_of_mem_mapM all (Dict.mem_of_find?_ofList found)
    obtain ⟨value', ok, same⟩ := Except.bind_eq_ok_iff.mp readField
    cases same
    exact gives _ _ ok
  case h_2 => cases result

/-- A reader gives back what was written, if it is of a kind. -/
def Restores {α : Type} (read : Decoder α) (write : α → Json) (kind : α → Prop) : Prop :=
  ∀ a, kind a → read (write a) = .ok a

variable {write : α → Json}

theorem restores_text : text.Restores .text fun _ => True := fun _ _ => rfl

theorem restores_bool : bool.Restores .bool fun _ => True := fun _ _ => rfl

theorem restores_whole {least most : Int} {name : String} :
    (whole least most name).Restores (fun n => .number (.whole n)) fun n => least ≤ n ∧ n ≤ most :=
  fun _ bounds => if_pos bounds

theorem restores_natural {count : Nat} {name : String} :
    Restores (fun j => (whole 0 (count - 1) name j).map Int.toNat) Json.ofNat (· < count) := by
  intro n below
  have bounds : 0 ≤ (n : Int) ∧ (n : Int) ≤ count - 1 := by omega
  have read : whole 0 (count - 1) name (.number (.whole n)) = .ok (n : Int) := restores_whole n bounds
  change (whole 0 (count - 1) name (.number (.whole n))).map Int.toNat = .ok n
  rw [read]
  rfl

theorem ofNat_ne_null (n : Nat) : Json.ofNat n ≠ .null := nofun

theorem restores_unsigned64 : unsigned64.Restores Json.ofNat (· < wordCount) := restores_natural

theorem restores_unsigned32 : unsigned32.Restores Json.ofNat (· < halfWordCount) := restores_natural

theorem restores_size : size.Restores Json.ofNat (· < wordCount) := restores_natural

/-- What is written must not be null, which is read as nothing. -/
theorem Restores.optional (restores : read.Restores write kind) (solid : ∀ a, write a ≠ .null) :
    (optional read).Restores (Json.ofOption write) fun found => ∀ a ∈ found, kind a := by
  intro found each
  cases found with
  | none => rfl
  | some a =>
    have back := restores a (each a rfl)
    change Decoder.optional read (write a) = .ok (some a)
    unfold Decoder.optional
    split
    next null => exact absurd null (solid a)
    next =>
      rw [back]
      rfl

theorem present_cons_self (name : String) (read : Decoder α) (j : Json)
    (rest : List (String × Json)) :
    Decoder.present name read ((name, j) :: rest) = (read j).map some := by
  simp only [Decoder.present, lookup, if_true]

theorem present_cons_of_ne {name other : String} (different : other ≠ name) (read : Decoder α)
    (j : Json) (rest : List (String × Json)) :
    Decoder.present name read ((other, j) :: rest) = Decoder.present name read rest := by
  simp only [Decoder.present, lookup, different, if_false]

/-- A field of a record whose fields have different names. -/
theorem present_ofList {names : List String} (distinct : names.Nodup) {fields : List (String × Json)}
    (named : fields.map Prod.fst = names) (name : String) (read : Decoder α) :
    Decoder.present name read (Dict.ofList fields).entries = Decoder.present name read fields := by
  rw [Decoder.present, lookup_ofList (named ▸ distinct), Decoder.present]

theorem Restores.list (restores : read.Restores write kind) :
    (list read).Restores (fun as => .list (as.map write)) fun as => ∀ a ∈ as, kind a := by
  intro as each
  change all read (as.map write) = .ok as
  induction as with
  | nil => rfl
  | cons a as ih =>
    have first := restores a (each a (List.mem_cons_self ..))
    have others := ih fun b later => each b (List.mem_cons_of_mem _ later)
    simp only [List.map_cons, all, first, others, bind, Except.bind]

theorem Restores.dict (restores : read.Restores write kind) :
    (dict read).Restores (fun d => .ofFields (d.entries.map fun e => (e.1, write e.2)))
      fun d => ∀ name value, d.find? name = some value → kind value := by
  intro d each
  have ascending : Ascending (d.entries.map fun e => (e.1, write e.2)) :=
    List.pairwise_map.mpr d.ascending
  have back : (d.entries.map fun e => (e.1, write e.2)).mapM (fun field => do
      let value ← read field.2
      return (field.1, value)) = .ok d.entries := by
    refine Except.mapM_map_of_forall fun e here => ?_
    rw [restores e.2 (each e.1 e.2 ((d.mem_entries_iff e.1 e.2).mp here))]
    rfl
  change Decoder.dict read (.object (Dict.ofList _).entries) = .ok d
  rw [entries_ofList ascending, Decoder.dict, back]
  have same : Dict.ofList d.entries = d := Dict.ext_find? fun name => by
    rw [Dict.find?, entries_ofList d.ascending, Dict.find?]
  exact congrArg Except.ok same

end Decoder

end ReadModel
