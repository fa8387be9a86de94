import Chronicle.Codec.Wire

/-!
# Reading back the binary form

A format reads a value back when reading what it wrote gives the value and leaves the bytes behind
it alone, whatever these are (`Format.ReadsBack`). Because of what stands behind, the law is one of
the parts as much as of the whole: there is a lemma for every way of putting formats together, and
a type is shown to be read back by applying them along its format.
-/

namespace Chronicle

/-- Reading what was written gives the value and leaves the bytes behind it. -/
def Format.ReadsBack {α : Type} (f : Format α) (value : α) : Prop :=
  ∀ rest, f.ofBinary (f.toBinary value ++ rest) = some (value, rest)

/-- The same of the fields of a record. -/
def Fields.ReadsBack {α : Type} (fields : Fields α) (value : α) : Prop :=
  ∀ rest, fields.ofBinary (fields.toBinary value ++ rest) = some (value, rest)

/-- The same of the alternatives of a union, behind their numbers. -/
structure Variants.ReadsBack {α : Type} (variants : Variants α) (value : α) : Prop where
  lt : (variants.toBinary value).1 < variants.count
  reads : ∀ rest, variants.ofBinary (variants.toBinary value).1
    ((variants.toBinary value).2 ++ rest) = some (value, rest)

/-! ## Texts as bytes -/

namespace Bytes

theorem toList_eq (bytes : ByteArray) : bytes.toList = bytes.data.toList := by
  have hloop : ∀ (count i : Nat) (read : Bytes), bytes.size = i + count →
      ByteArray.toList.loop bytes i read = read.reverse ++ bytes.data.toList.drop i := by
    intro count
    induction count with
    | zero =>
      intro i read hsize
      have hend : bytes.data.toList.length ≤ i := by
        rw [Array.length_toList]; exact Nat.le_of_eq hsize
      rw [ByteArray.toList.loop, if_neg (by omega), List.drop_eq_nil_of_le hend, List.append_nil]
    | succ count ih =>
      intro i read hsize
      have hlt : i < bytes.data.toList.length := by
        rw [Array.length_toList]; show i < bytes.size; omega
      have hget : bytes.get! i = bytes.data.toList[i] := by
        show bytes.data[i]! = _
        rw [Array.length_toList] at hlt
        rw [getElem!_pos bytes.data i hlt, Array.getElem_toList]
      rw [ByteArray.toList.loop, if_pos (by omega), ih (i + 1) _ (by omega),
        List.drop_eq_getElem_cons hlt, hget, List.reverse_cons, List.append_assoc]
      rfl
  exact hloop bytes.size 0 [] (Nat.zero_add _).symm

theorem length_ofText (text : String) : (ofText text).length = text.utf8ByteSize := by
  rw [ofText, toList_eq, Array.length_toList]
  rfl

/-- The bytes of a text encode it. -/
theorem toText?_ofText (text : String) : toText? (ofText text) = some text := by
  have hbytes : (⟨(ofText text).toArray⟩ : ByteArray) = text.toByteArray := by
    rw [ofText, toList_eq, Array.toArray_toList]
    rfl
  rw [toText?, hbytes, String.fromUTF8?, dif_pos text.isValidUTF8]
  rfl

end Bytes

/-! ## Numbers, texts and lists -/

namespace Format

variable {α β : Type}

theorem natural_readsBack {width n : Nat} (h : n < Bytes.capacity width) :
    (natural width).ReadsBack n := Bytes.number?_append h

theorem ReadsBack.refine {f : Format α} {into : β → α} {of? : α → Option β} {value : β}
    (h : f.ReadsBack (into value)) (hof : of? (into value) = some value) :
    (f.refine into of?).ReadsBack value := by
  intro rest
  simp only [Format.refine, h rest, hof, Option.bind_eq_bind, Option.bind_some, Option.pure_def]

theorem ReadsBack.rename {f : Format α} {into : β → α} {of : α → β} {value : β}
    (h : f.ReadsBack (into value)) (hof : of (into value) = value) :
    (f.rename into of).ReadsBack value :=
  h.refine (congrArg some hof)

theorem uint32_readsBack (n : UInt32) : uint32.ReadsBack n :=
  (natural_readsBack n.toNat_lt).rename UInt32.ofNat_toNat

theorem uint64_readsBack (n : UInt64) : uint64.ReadsBack n :=
  (natural_readsBack n.toNat_lt).rename UInt64.ofNat_toNat

/-- A signed number whose two's complement fits the width is read back. -/
theorem integer_readsBack {width : Nat} {i : Int} (hlow : -(Bytes.capacity width / 2 : Nat) ≤ i)
    (hhigh : i < (Bytes.capacity width / 2 : Nat)) : (integer width).ReadsBack i := by
  intro rest
  have hpos : (0 : Int) < Bytes.capacity width := by omega
  have hmod := Int.emod_nonneg i (Int.ne_of_gt hpos)
  have hfits : (i % Bytes.capacity width).toNat < Bytes.capacity width := by
    have hlt := Int.emod_lt_of_pos i hpos
    omega
  simp only [integer, Bytes.number?_append hfits, Option.map_some, Int.toNat_of_nonneg hmod,
    Int.emod_bmod]
  rw [Int.bmod_eq_of_le (by omega) (by omega)]

theorem sizedBytes?_append {bytes : Bytes} (h : bytes.length < Bytes.capacity 8) (rest : Bytes) :
    sizedBytes? (sizedBytes bytes ++ rest) = some (bytes, rest) := by
  have hsplit := Bytes.split?_append bytes rest
  unfold sizedBytes? sizedBytes
  rw [List.append_assoc, Bytes.number?_append h]
  simp only [Option.bind_eq_bind, Option.bind_some, hsplit]

/-- A text whose bytes can be counted in 64 bits is read back. -/
theorem string_readsBack {text : String} (h : text.utf8ByteSize < UInt64.size) :
    string.ReadsBack text := by
  intro rest
  rw [← Bytes.length_ofText] at h
  simp only [string, sizedBytes?_append h, Option.bind_eq_bind, Option.bind_some,
    Bytes.toText?_ofText, Option.pure_def]

theorem uuid_readsBack (u : Uuid) : uuid.ReadsBack u := by
  intro rest
  have hcount : u.bytes.length < Bytes.capacity 8 := by
    rw [u.size_bytes]
    decide
  have hread : Uuid.ofBytes? u.bytes = some u := dif_pos u.size_bytes
  simp only [uuid, sizedBytes?_append hcount, hread, Option.bind_eq_bind, Option.bind_some,
    Option.pure_def]

theorem bool_readsBack (b : Bool) : bool.ReadsBack b := by
  intro rest
  cases b <;> rfl

theorem option_readsBack {f : Format α} {value : Option α}
    (h : ∀ content ∈ value, f.ReadsBack content) : f.option.ReadsBack value := by
  intro rest
  cases value with
  | none => rfl
  | some content =>
    show (f.ofBinary (f.toBinary content ++ rest)).map _ = _
    rw [h content rfl]
    rfl

theorem repeated?_readsBack {f : Format α} {values : List α}
    (h : ∀ value ∈ values, f.ReadsBack value) (rest : Bytes) :
    repeated? f.ofBinary values.length (values.flatMap f.toBinary ++ rest) =
      some (values, rest) := by
  induction values with
  | nil => rfl
  | cons value values ih =>
    have hfirst := h value (List.mem_cons_self ..)
    have hrest := ih fun other hin => h other (List.mem_cons_of_mem _ hin)
    rw [List.length_cons, repeated?, List.flatMap_cons, List.append_assoc, hfirst]
    show (repeated? f.ofBinary values.length _).bind _ = _
    rw [hrest]
    rfl

theorem list_readsBack {f : Format α} {values : List α}
    (hlength : values.length < Bytes.capacity 8) (h : ∀ value ∈ values, f.ReadsBack value) :
    f.list.ReadsBack values := by
  intro rest
  simp only [list, List.append_assoc, Bytes.number?_append hlength]
  exact repeated?_readsBack h rest

end Format

/-! ## Records -/

namespace Fields

variable {α β : Type}

theorem none_readsBack : none.ReadsBack () := fun _ => rfl

theorem ReadsBack.required {name : String} {f : Format α} {fields : Fields β} {first : α}
    {others : β} (hfirst : f.ReadsBack first) (hothers : fields.ReadsBack others) :
    (required name f fields).ReadsBack (first, others) := by
  intro rest
  show (f.ofBinary (f.toBinary first ++ fields.toBinary others ++ rest)).bind _ = _
  rw [List.append_assoc, hfirst]
  show (fields.ofBinary (fields.toBinary others ++ rest)).bind _ = _
  rw [hothers]
  rfl

end Fields

theorem Format.record_readsBack {α β : Type} {fields : Fields α} {into : β → α} {of : α → β}
    {value : β} (h : fields.ReadsBack (into value)) (hof : of (into value) = value) :
    (Format.record fields into of).ReadsBack value :=
  ReadsBack.rename (f := fields.format false) h hof

/-! ## Tagged unions -/

namespace Variants

variable {α β : Type} {name : String} {f : Format α} {variants : Variants β}

theorem plain_readsBack : (plain name variants).ReadsBack (.inl ()) where
  lt := Nat.succ_pos _
  reads _ := rfl

theorem holding_readsBack {value : α} (h : f.ReadsBack value) :
    (holding name f variants).ReadsBack (.inl value) where
  lt := Nat.succ_pos _
  reads rest := by
    show (f.ofBinary (f.toBinary value ++ rest)).map _ = _
    rw [h]
    rfl

theorem ReadsBack.behind_holding {value : β} (h : variants.ReadsBack value) :
    (holding name f variants).ReadsBack (.inr value) where
  lt := Nat.succ_lt_succ h.lt
  reads rest := by
    show (variants.ofBinary (variants.toBinary value).1
      ((variants.toBinary value).2 ++ rest)).map _ = _
    rw [h.reads]
    rfl

end Variants

theorem Format.union_readsBack {α β : Type} {variants : Variants α} {into : β → α} {of : α → β}
    {value : β} (hcount : variants.count ≤ Bytes.capacity 4)
    (h : variants.ReadsBack (into value)) (hof : of (into value) = value) :
    (Format.union variants into of).ReadsBack value := by
  refine ReadsBack.rename (f := variants.format) (fun rest => ?_) hof
  have hnumber := Nat.lt_of_lt_of_le h.lt hcount
  simp only [Variants.format, List.append_assoc, Bytes.number?_append hnumber]
  exact h.reads rest

/-! ## The codec -/

/-- A value that its format reads back comes back of its binary form. -/
theorem Codec.decode_binary {α : Type} [Wire α] {value : α} {data : Bytes}
    (h : (Wire.format (α := α)).ReadsBack value) (hencode : Codec.binary.encode value = .ok data) :
    Codec.binary.decode data = .ok value := by
  obtain rfl := Except.ok.inj hencode
  have hread := h []
  rw [List.append_nil] at hread
  unfold decode decode?
  rw [hread]
  rfl

end Chronicle
