import Chronicle.Codec.Wire

/-!
# What is told by what was read

The other direction of writing: where a truth value, a value that may be absent or a record was
read, the bytes or the document had it. A record is taken apart field by field, in the binary form,
from the members of an object and from the items of an array.
-/

namespace Chronicle

variable {α β : Type}

namespace Format

variable {f : Format α}

theorem bool_ofBinary_eq_some {bytes rest : Bytes} {b : Bool}
    (h : bool.ofBinary bytes = some (b, rest)) : bytes = (if b then 1 else 0) :: rest := by
  cases bytes with
  | nil => cases h
  | cons byte bytes =>
    simp only [bool] at h
    split at h
    · next hzero =>
      obtain ⟨rfl, rfl⟩ := Prod.mk.inj (Option.some.inj h)
      rw [hzero]
      rfl
    · split at h
      · next hone =>
        obtain ⟨rfl, rfl⟩ := Prod.mk.inj (Option.some.inj h)
        rw [hone]
        rfl
      · cases h

theorem option_ofBinary_eq_some {bytes rest : Bytes} {value : Option α}
    (h : f.option.ofBinary bytes = some (value, rest)) :
    ∃ tail, bytes = (if value.isSome then 1 else 0) :: tail := by
  cases bytes with
  | nil => cases h
  | cons byte bytes =>
    simp only [option] at h
    split at h
    · next hzero =>
      obtain ⟨rfl, rfl⟩ := Prod.mk.inj (Option.some.inj h)
      exact ⟨bytes, by rw [hzero]; rfl⟩
    · split at h
      · next hone =>
        obtain ⟨⟨content, tail⟩, -, heq⟩ := Option.map_eq_some_iff.mp h
        obtain ⟨rfl, rfl⟩ := Prod.mk.inj heq
        exact ⟨bytes, by rw [hone]; rfl⟩
      · cases h

theorem bool_ofJson_eq_some {json : Json} {b : Bool} (h : bool.ofJson json = some b) :
    json = .bool b := by
  cases json with
  | bool value => rw [Option.some.inj h]
  | _ => cases h

theorem string_option_ofJson_eq_some {json : Json} {value : Option String}
    (h : string.option.ofJson json = some value) :
    value = none ∧ json = .null ∨ ∃ text, value = some text ∧ json = .text (some text) := by
  cases json with
  | null => exact .inl ⟨(Option.some.inj h).symm, rfl⟩
  | text content =>
    obtain ⟨text, hcontent, rfl⟩ := Option.map_eq_some_iff.mp h
    exact .inr ⟨text, rfl, congrArg Json.text hcontent⟩
  | _ => cases h

end Format

/-! ## Records -/

namespace Fields

variable {name : String} {f : Format α} {fields : Fields β} {first : α} {others : β}

theorem required_ofBinary_eq_some {bytes rest : Bytes}
    (h : (required name f fields).ofBinary bytes = some ((first, others), rest)) :
    ∃ tail, f.ofBinary bytes = some (first, tail) ∧ fields.ofBinary tail = some (others, rest) := by
  obtain ⟨⟨value, tail⟩, hfirst, h⟩ := Option.bind_eq_some_iff.mp h
  obtain ⟨⟨values, left⟩, hothers, h⟩ := Option.bind_eq_some_iff.mp h
  obtain ⟨hvalue, rfl⟩ := Prod.mk.inj (Option.some.inj h)
  obtain ⟨rfl, rfl⟩ := Prod.mk.inj hvalue
  exact ⟨tail, hfirst, hothers⟩

theorem required_ofMembers_eq_some {find : String → Option Json}
    (h : (required name f fields).ofMembers find = some (first, others)) :
    (find name = Option.none ∧ f.missing = some first ∨
      ∃ json, find name = some json ∧ f.ofJson json = some first) ∧
      fields.ofMembers find = some others := by
  have hparts : ∀ told : Option α,
      (told.bind fun value => (fields.ofMembers find).bind fun values => some (value, values)) =
        some (first, others) → told = some first ∧ fields.ofMembers find = some others := by
    intro told h
    obtain ⟨value, hfirst, h⟩ := Option.bind_eq_some_iff.mp h
    obtain ⟨values, hothers, h⟩ := Option.bind_eq_some_iff.mp h
    obtain ⟨rfl, rfl⟩ := Prod.mk.inj (Option.some.inj h)
    exact ⟨hfirst, hothers⟩
  simp only [required, field] at h
  cases hfind : find name with
  | some json =>
    rw [hfind] at h
    exact (hparts _ h).imp_left fun hfirst => .inr ⟨json, rfl, hfirst⟩
  | none =>
    rw [hfind] at h
    exact (hparts _ h).imp_left fun hfirst => .inl ⟨rfl, hfirst⟩

theorem required_ofItems_eq_some {items : List Json}
    (h : (required name f fields).ofItems items = some (first, others)) :
    ∃ json rest, items = json :: rest ∧ f.ofJson json = some first ∧
      fields.ofItems rest = some others := by
  cases items with
  | nil => cases h
  | cons json rest =>
    obtain ⟨value, hfirst, h⟩ := Option.bind_eq_some_iff.mp h
    obtain ⟨values, hothers, h⟩ := Option.bind_eq_some_iff.mp h
    obtain ⟨rfl, rfl⟩ := Prod.mk.inj (Option.some.inj h)
    exact ⟨json, rest, rfl, hfirst, hothers⟩

end Fields

namespace Format

variable {fields : Fields α} {into : β → α} {of : α → β} {value : β}

theorem record_ofBinary_eq_some {bytes rest : Bytes}
    (h : (record fields into of).ofBinary bytes = some (value, rest)) :
    ∃ parts, fields.ofBinary bytes = some (parts, rest) ∧ of parts = value := by
  obtain ⟨⟨parts, tail⟩, hparts, h⟩ := Option.bind_eq_some_iff.mp h
  obtain ⟨rfl, rfl⟩ := Prod.mk.inj (Option.some.inj h)
  exact ⟨parts, hparts, rfl⟩

theorem record_ofJson_eq_some {document : Json}
    (h : (record fields into of).ofJson document = some value) :
    ∃ parts, of parts = value ∧
      ((∃ members, document = .object members ∧
          fields.ofMembers (Fields.find members) = some parts) ∨
        ∃ items, document = .array items ∧ fields.ofItems items = some parts) := by
  obtain ⟨parts, hparts, heq⟩ := Option.bind_eq_some_iff.mp h
  refine ⟨parts, Option.some.inj heq, ?_⟩
  cases document with
  | object members =>
    simp only [Fields.format] at hparts
    split at hparts
    · exact .inl ⟨members, rfl, hparts⟩
    · cases hparts
  | array items => exact .inr ⟨items, rfl, hparts⟩
  | null | bool | number | text => cases hparts

end Format

theorem Codec.decode_eq_ok [Wire α] {codec : Codec} {bytes : Bytes} {value : α}
    (h : codec.decode bytes = .ok value) : codec.decode? bytes = some value := by
  unfold Codec.decode at h
  split at h
  · next found hfound => rw [hfound, Except.ok.inj h]
  · cases h

/-- What a document that is read as a record tells of a field: the member with its name or, in an
array, the item at its place. -/
def Json.field? (name : String) (place : Nat) : Json → Option Json
  | .object members => Fields.find members name
  | .array items => items[place]?
  | _ => none

end Chronicle
