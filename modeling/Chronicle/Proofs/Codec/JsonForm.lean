import Chronicle.Proofs.Codec.Document
import Chronicle.Proofs.Text.Hexadecimal

/-!
# Reading back the JSON form

The JSON form of a value comes back when there is one, it can be written, and reading it gives the
value (`Format.HasForm`). As with the binary form there is a lemma for every way of putting
formats together. Nothing stands behind a JSON form; what matters is that names are told apart,
those of a record's fields and those of a union's alternatives.
-/

namespace Chronicle

/-- The JSON form of a value can be written and is read as the value. -/
structure Format.FormIs {α : Type} (f : Format α) (value : α) (json : Json) : Prop where
  shown : f.toJson value = some json
  written : json.Written
  reads : f.ofJson json = some value

def Format.HasForm {α : Type} (f : Format α) (value : α) : Prop := ∃ json, f.FormIs value json

/-- The members that a record shows are its fields, and they are read wherever they are found. -/
structure Fields.MembersAre {α : Type} (fields : Fields α) (value : α)
    (members : List (String × Json)) : Prop where
  shown : fields.toMembers value = some members
  names : members.map Prod.fst = fields.names
  written : ∀ member ∈ members, member.2.Written
  reads : ∀ find : String → Option Json, (∀ member ∈ members, find member.1 = some member.2) →
    fields.ofMembers find = some value

def Fields.HasForm {α : Type} (fields : Fields α) (value : α) : Prop :=
  ∃ members, fields.MembersAre value members

/-- A value is shown under the name of its alternative: as that name alone, or as a record with
that one member. -/
inductive Variants.Shows {α : Type} (variants : Variants α) (value : α) (name : String) : Prop
  | text (shown : variants.toJson value = some (Json.str name))
      (reads : variants.ofText name = some value)
  | member {json : Json} (shown : variants.toJson value = some (Json.record [(name, json)]))
      (written : json.Written) (reads : variants.ofMember name json = some value)

/-! ## Numbers and texts -/

namespace Format

variable {α β : Type}

theorem natural_hasForm {width n : Nat} (hwidth : Bytes.capacity width ≤ 0x10000000000000000)
    (h : n < Bytes.capacity width) : (natural width).HasForm n := by
  refine ⟨Json.int n, rfl, Json.written_int n, ?_⟩
  have hint : Json.Number.toInt? ⟨(n : Int) < 0, (n : Int).natAbs, [], none⟩ = some (n : Int) := by
    simp only [Json.Number.toInt?, Int.natAbs_natCast, and_self, if_true]
    rw [if_neg (by simp), if_pos (by omega)]
  simp only [natural, Json.int, hint, Option.bind_eq_bind, Option.bind_some]
  rw [if_pos ⟨Int.natCast_nonneg n, by omega⟩, Int.toNat_natCast]

/-- A signed number of no more than 64 bits. -/
theorem integer_hasForm {width : Nat} {i : Int}
    (hwidth : Bytes.capacity width / 2 ≤ 0x8000000000000000)
    (hlow : -(Bytes.capacity width / 2 : Nat) ≤ i) (hhigh : i < (Bytes.capacity width / 2 : Nat)) :
    (integer width).HasForm i := by
  refine ⟨Json.int i, rfl, Json.written_int i, ?_⟩
  have hint : Json.Number.toInt? ⟨i < 0, i.natAbs, [], none⟩ = some i := by
    simp only [Json.Number.toInt?, and_self, if_true, decide_eq_true_eq]
    by_cases hneg : i < 0
    · rw [if_pos hneg, if_pos (by omega), show -(i.natAbs : Int) = i by omega]
    · rw [if_neg hneg, if_pos (by omega), show (i.natAbs : Int) = i by omega]
  simp only [integer, Json.int, hint, Option.bind_eq_bind, Option.bind_some]
  exact if_pos ⟨hlow, hhigh⟩

theorem FormIs.refine {f : Format α} {into : β → α} {of? : α → Option β} {value : β} {json : Json}
    (h : f.FormIs (into value) json) (hof : of? (into value) = some value) :
    (f.refine into of?).FormIs value json where
  shown := h.shown
  written := h.written
  reads := by simp only [Format.refine, h.reads, Option.bind_some, hof]

theorem HasForm.refine {f : Format α} {into : β → α} {of? : α → Option β} {value : β}
    (h : f.HasForm (into value)) (hof : of? (into value) = some value) :
    (f.refine into of?).HasForm value :=
  h.imp fun _ hform => hform.refine hof

theorem HasForm.rename {f : Format α} {into : β → α} {of : α → β} {value : β}
    (h : f.HasForm (into value)) (hof : of (into value) = value) :
    (f.rename into of).HasForm value :=
  h.refine (congrArg some hof)

theorem uint32_hasForm (n : UInt32) : uint32.HasForm n :=
  (natural_hasForm (by decide) n.toNat_lt).rename UInt32.ofNat_toNat

theorem uint64_hasForm (n : UInt64) : uint64.HasForm n :=
  (natural_hasForm (by decide) n.toNat_lt).rename UInt64.ofNat_toNat

theorem string_hasForm (text : String) : string.HasForm text :=
  ⟨Json.str text, rfl, Json.written_str text, rfl⟩

theorem uuid_formIs (u : Uuid) : uuid.FormIs u (Json.str u.toText) where
  shown := rfl
  written := Json.written_str u.toText
  reads := by simp only [uuid, Json.str, Option.bind_some, Uuid.ofText?_toText]

theorem bool_hasForm (b : Bool) : bool.HasForm b := ⟨.bool b, rfl, trivial, rfl⟩

/-- A value that may be absent has a form where none of its contents is shown as nothing. -/
theorem option_hasForm {f : Format α} {value : Option α}
    (h : ∀ content ∈ value, ∃ json, f.FormIs content json ∧ json ≠ .null) :
    f.option.HasForm value := by
  cases value with
  | none => exact ⟨.null, rfl, trivial, rfl⟩
  | some content =>
    obtain ⟨json, ⟨hshown, hwritten, hreads⟩, hsome⟩ := h content rfl
    refine ⟨json, hshown, hwritten, ?_⟩
    cases json with
    | null => exact absurd rfl hsome
    | _ => exact congrArg (Option.map some) hreads

theorem list_hasForm {f : Format α} {values : List α} (h : ∀ value ∈ values, f.HasForm value) :
    f.list.HasForm values := by
  have hitems : ∃ items, values.mapM f.toJson = some items ∧ Json.WrittenItems items ∧
      items.mapM f.ofJson = some values := by
    induction values with
    | nil => exact ⟨[], rfl, trivial, rfl⟩
    | cons value values ih =>
      obtain ⟨json, hshown, hwritten, hreads⟩ := h value (List.mem_cons_self ..)
      obtain ⟨items, hshowns, hwrittens, hreadss⟩ :=
        ih fun other hin => h other (List.mem_cons_of_mem _ hin)
      refine ⟨json :: items, ?_, ⟨hwritten, hwrittens⟩, ?_⟩
      · rw [List.mapM_cons, hshown, hshowns]
        rfl
      · rw [List.mapM_cons, hreads, hreadss]
        rfl
  obtain ⟨items, hshown, hwritten, hreads⟩ := hitems
  exact ⟨.array items, congrArg (Option.map Json.array) hshown, hwritten, hreads⟩

end Format

/-! ## Records -/

namespace Fields

variable {α β : Type}

theorem none_hasForm : none.HasForm () := ⟨[], rfl, rfl, by simp, fun _ _ => rfl⟩

theorem HasForm.required {name : String} {f : Format α} {fields : Fields β} {first : α}
    {others : β} (hfirst : f.HasForm first) (hothers : fields.HasForm others) :
    (required name f fields).HasForm (first, others) := by
  obtain ⟨json, hshown, hwritten, hreads⟩ := hfirst
  obtain ⟨members, hmembers⟩ := hothers
  refine ⟨(name, json) :: members, ?_, ?_, ?_, fun find hfind => ?_⟩
  · simp [Fields.required, field, hshown, hmembers.shown]
  · simp [Fields.required, field, hmembers.names]
  · simpa using ⟨hwritten, fun name json => hmembers.written (name, json)⟩
  · have hname := hfind _ (List.mem_cons_self ..)
    have hrest := hmembers.reads find fun member hin => hfind member (List.mem_cons_of_mem _ hin)
    simp [Fields.required, field, hname, hreads, hrest]

theorem writtenMembers_map {members : List (String × Json)}
    (h : ∀ member ∈ members, member.2.Written) :
    Json.WrittenMembers (members.map fun (name, value) => (some name, value)) := by
  induction members with
  | nil => trivial
  | cons member members ih =>
    exact ⟨rfl, h member (List.mem_cons_self ..), ih fun other hin =>
      h other (List.mem_cons_of_mem _ hin)⟩

theorem occurrences_map (name : String) (members : List (String × Json)) :
    occurrences name (members.map fun (name, value) => (some name, value)) =
      (members.map Prod.fst).count name := by
  induction members with
  | nil => rfl
  | cons member members ih =>
    simp only [occurrences, List.map_cons, List.filter_cons, List.count_cons] at ih ⊢
    by_cases heq : member.1 = name <;> simp [heq, ih]

theorem find_map {members : List (String × Json)} (h : (members.map Prod.fst).Nodup)
    {member : String × Json} (hin : member ∈ members) :
    find (members.map fun (name, value) => (some name, value)) member.1 = some member.2 := by
  induction members with
  | nil => cases hin
  | cons first members ih =>
    rw [List.map_cons, List.nodup_cons] at h
    rcases List.mem_cons.mp hin with rfl | hin
    · simp [find]
    · have hne : first.1 ≠ member.1 := fun heq => h.1 (heq ▸ List.mem_map_of_mem hin)
      have hfirst : (some first.1 == some member.1) = false := by simpa using hne
      simp only [find, List.map_cons, List.find?_cons, hfirst]
      exact ih h.2 hin

end Fields

theorem Format.record_hasForm {α β : Type} {fields : Fields α} {into : β → α} {of : α → β}
    {value : β} (hnames : fields.names.Nodup) (h : fields.HasForm (into value))
    (hof : of (into value) = value) : (Format.record fields into of).HasForm value := by
  obtain ⟨members, hshown, hsame, hwritten, hreads⟩ := h
  have hnodup : (members.map Prod.fst).Nodup := hsame ▸ hnames
  have hadmits : Fields.admits fields.names false
      (members.map fun (name, value) => (some name, value)) = true := by
    simp only [Fields.admits, Fields.occurrences_map, Bool.and_eq_true, List.all_eq_true,
      List.mem_map, decide_eq_true_eq]
    refine ⟨?_, fun name _ => List.nodup_iff_count.mp hnodup name⟩
    rintro _ ⟨member, -, rfl⟩
    rfl
  refine HasForm.rename (f := fields.format false) ⟨Json.record members, ?_, ?_, ?_⟩ hof
  · simp [Fields.format, hshown]
  · exact Fields.writtenMembers_map hwritten
  · simp only [Fields.format, Json.record, hadmits, if_true]
    exact hreads _ fun member hin => Fields.find_map hnodup hin

/-! ## Tagged unions -/

namespace Variants

variable {α β : Type} {name other : String} {f : Format α} {variants : Variants β}

theorem plain_shows : (plain name variants).Shows (.inl ()) name :=
  .text rfl (by simp [plain])

theorem holding_shows {value : α} (h : f.HasForm value) :
    (holding name f variants).Shows (.inl value) name := by
  obtain ⟨json, hshown, hwritten, hreads⟩ := h
  exact .member (by simp [holding, hshown]) hwritten (by simp [holding, hreads])

theorem Shows.behind_holding {value : β} (h : variants.Shows value other) (hne : other ≠ name) :
    (holding name f variants).Shows (.inr value) other := by
  cases h with
  | text shown reads => exact .text shown (by simp [holding, hne, reads])
  | member shown written reads => exact .member shown written (by simp [holding, hne, reads])

end Variants

theorem Format.union_hasForm {α β : Type} {variants : Variants α} {into : β → α} {of : α → β}
    {value : β} {name : String} (h : variants.Shows (into value) name)
    (hof : of (into value) = value) : (Format.union variants into of).HasForm value := by
  refine HasForm.rename (f := variants.format) ?_ hof
  cases h with
  | text shown reads => exact ⟨_, shown, Json.written_str name, reads⟩
  | member shown written reads => exact ⟨_, shown, ⟨rfl, written, trivial⟩, reads⟩

/-! ## The codec -/

/-- A value whose JSON form comes back, comes back of the bytes it is written as. -/
theorem Codec.decode_json {α : Type} [Wire α] {value : α} {data : Bytes}
    (h : (Wire.format (α := α)).HasForm value) (hencode : Codec.json.encode value = .ok data) :
    Codec.json.decode data = .ok value := by
  obtain ⟨json, hshown, hwritten, hreads⟩ := h
  simp only [encode, hshown] at hencode
  obtain rfl := Except.ok.inj hencode
  simp only [decode, decode?, Json.parse?_render hwritten, Option.bind_some, hreads]

/-- A value that comes back of both forms, comes back with either codec. -/
theorem Codec.decode_encode {α : Type} [Wire α] {codec : Codec} {value : α} {data : Bytes}
    (hback : codec = .binary → (Wire.format (α := α)).ReadsBack value)
    (hform : (Wire.format (α := α)).HasForm value) (h : codec.encode value = .ok data) :
    codec.decode data = .ok value := by
  cases codec with
  | binary => exact decode_binary (hback rfl) h
  | json => exact decode_json hform h

/-- What has a JSON form can be written with either codec. -/
theorem Codec.exists_encode {α : Type} [Wire α] {value : α}
    (h : (Wire.format (α := α)).HasForm value) (codec : Codec) :
    ∃ data, codec.encode value = .ok data := by
  cases codec with
  | binary => exact ⟨_, rfl⟩
  | json =>
    obtain ⟨json, hshown, -, -⟩ := h
    exact ⟨json.render, by rw [encode, hshown]⟩

end Chronicle
