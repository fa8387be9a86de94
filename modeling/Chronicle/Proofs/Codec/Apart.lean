import Chronicle.Proofs.Codec.Printed
import Chronicle.Proofs.Lists
import Mathlib.Algebra.Group.Nat.Defs

/-!
# The two forms of a value are told apart

Nothing that is stored says with which codec it was written. For many formats nothing needs to say
so. Their binary form has a byte that no document has (`Format.HasControl`), so it is not read as
JSON. And of printed bytes they do not read a binary form: an alternative would have too high a
number, a value that may be absent would be neither, and a list would have more items than there
are bytes (`Format.Refuses`). `Codec.decode?_of_other` puts both together.
-/

namespace Chronicle

namespace Bytes

/-! ## Numbers of printed bytes -/

theorem split?_eq_some {count : Nat} {bytes front rest : Bytes}
    (h : bytes.split? count = some (front, rest)) :
    bytes = front ++ rest ∧ front.length = count := by
  induction count generalizing bytes front with
  | zero =>
    obtain ⟨rfl, rfl⟩ := Prod.mk.inj (Option.some.inj h)
    exact ⟨rfl, rfl⟩
  | succ count ih =>
    cases bytes with
    | nil => cases h
    | cons byte bytes =>
      cases hsplit : split? count bytes with
      | none => rw [split?, hsplit] at h; cases h
      | some parts =>
        rw [split?, hsplit] at h
        obtain ⟨rfl, rfl⟩ := Prod.mk.inj (Option.some.inj h)
        obtain ⟨rfl, hlength⟩ := ih hsplit
        exact ⟨rfl, congrArg (· + 1) hlength⟩

theorem le_toNat_of_printed {width : Nat} {bytes : Bytes} (h : bytes.Printed)
    (hlength : bytes.length = width + 1) : 9 * capacity width ≤ toNat bytes := by
  induction width generalizing bytes with
  | zero =>
    obtain ⟨byte, rfl⟩ := List.length_eq_one_iff.mp hlength
    have := h byte List.mem_cons_self
    simp only [capacity, toNat]
    omega
  | succ width ih =>
    obtain ⟨byte, bytes, rfl⟩ := List.exists_cons_of_length_eq_add_one hlength
    have := ih (fun byte hmem => h byte (List.mem_cons_of_mem _ hmem))
      (Nat.succ.inj hlength)
    simp only [capacity, toNat]
    omega

theorem le_of_number?_of_printed {width n : Nat} {bytes rest : Bytes} (h : bytes.Printed)
    (hread : number? (width + 1) bytes = some (n, rest)) : 9 * capacity width ≤ n := by
  obtain ⟨⟨front, behind⟩, hsplit, heq⟩ := Option.map_eq_some_iff.mp hread
  obtain ⟨rfl, rfl⟩ := Prod.mk.inj heq
  obtain ⟨rfl, hlength⟩ := split?_eq_some hsplit
  exact le_toNat_of_printed (fun byte hmem => h byte (List.mem_append_left _ hmem)) hlength

/-! ## Bytes that are taken -/

/-- A reader takes so many bytes at least. -/
def Takes {α : Type} (size : Nat) (read : Bytes → Option (α × Bytes)) : Prop :=
  ∀ ⦃bytes value rest⦄, read bytes = some (value, rest) → rest.length + size ≤ bytes.length

theorem takes_number? (width : Nat) : Takes width (number? width) := by
  intro bytes n rest h
  obtain ⟨⟨front, behind⟩, hsplit, heq⟩ := Option.map_eq_some_iff.mp h
  obtain ⟨rfl, rfl⟩ := Prod.mk.inj heq
  obtain ⟨rfl, rfl⟩ := split?_eq_some hsplit
  rw [List.length_append]
  omega

end Bytes

namespace Format

open Bytes

variable {α β : Type}

theorem takes_refine {size : Nat} {f : Format α} (h : Takes size f.ofBinary) (into : β → α)
    (of? : α → Option β) : Takes size (f.refine into of?).ofBinary := by
  intro bytes value rest hread
  obtain ⟨⟨raw, behind⟩, hraw, hread⟩ := Option.bind_eq_some_iff.mp hread
  obtain ⟨found, -, heq⟩ := Option.bind_eq_some_iff.mp hread
  obtain ⟨rfl, rfl⟩ := Prod.mk.inj (Option.some.inj heq)
  exact h hraw

theorem takes_uint32 : Takes 4 uint32.ofBinary := takes_refine (takes_number? 4) _ _

theorem takes_repeated? {size : Nat} {f : Format α} (h : Takes size f.ofBinary) (count : Nat) :
    Takes (size * count) (repeated? f.ofBinary count) := by
  induction count with
  | zero =>
    intro bytes values rest hread
    obtain ⟨rfl, rfl⟩ := Prod.mk.inj (Option.some.inj hread)
    exact Nat.le_refl _
  | succ count ih =>
    intro bytes values rest hread
    obtain ⟨⟨value, between⟩, hvalue, hread⟩ := Option.bind_eq_some_iff.mp hread
    obtain ⟨⟨others, behind⟩, hothers, heq⟩ := Option.bind_eq_some_iff.mp hread
    obtain ⟨rfl, rfl⟩ := Prod.mk.inj (Option.some.inj heq)
    have hfirst := h hvalue
    have hrest := ih hothers
    rw [Nat.mul_succ]
    omega

/-! ## Bytes that no document has -/

/-- The binary form of a value has a byte that no document has. -/
def HasControl (f : Format α) (value : α) : Prop := ∃ byte ∈ f.toBinary value, byte.toNat < 9

theorem zero_mem_littleEndian {width n : Nat} (h : n < capacity width) :
    (0 : UInt8) ∈ littleEndian (width + 1) n := by
  induction width generalizing n with
  | zero =>
    obtain rfl : n = 0 := Nat.lt_one_iff.mp h
    exact List.mem_cons_self
  | succ width ih =>
    have hquotient : n / 256 < capacity width := by
      rw [capacity] at h
      omega
    exact List.mem_cons_of_mem _ (ih hquotient)

/-- A list with fewer than 2⁵⁶ items has a zero in its length. -/
theorem hasControl_list (f : Format α) {values : List α} (h : values.length < capacity 7) :
    f.list.HasControl values :=
  ⟨0, List.mem_append_left _ (zero_mem_littleEndian h), by decide⟩

theorem hasControl_option (f : Format α) (value : Option α) : f.option.HasControl value := by
  cases value with
  | none => exact ⟨0, List.mem_cons_self, by decide⟩
  | some content => exact ⟨1, List.mem_cons_self, by decide⟩

/-- Of a record it is enough that the first field has such a byte. -/
theorem HasControl.record {α β γ : Type} {name : String} {f : Format α} {fields : Fields β}
    {into : γ → α × β} {of : α × β → γ} {value : γ} (h : f.HasControl (into value).1) :
    (Format.record (Fields.required name f fields) into of).HasControl value := by
  obtain ⟨byte, hmem, hbyte⟩ := h
  exact ⟨byte, List.mem_append_left _ hmem, hbyte⟩

/-! ## What is not read of printed bytes -/

/-- Nothing is read of these bytes. -/
def Refuses (f : Format α) (bytes : Bytes) : Prop := f.ofBinary bytes = none

theorem refuses_option (f : Format α) {bytes : Bytes} (h : bytes.Printed) :
    f.option.Refuses bytes := by
  cases bytes with
  | nil => rfl
  | cons byte bytes =>
    have hbyte := h byte List.mem_cons_self
    have hnone : byte ≠ 0 := by rintro rfl; exact absurd hbyte (by decide)
    have hsome : byte ≠ 1 := by rintro rfl; exact absurd hbyte (by decide)
    show (if byte = 0 then _ else if byte = 1 then _ else none) = none
    rw [if_neg hnone, if_neg hsome]

/-- Printed bytes are too few for the list of which they would tell the length. -/
theorem refuses_list {f : Format α} {size : Nat} (hsize : Takes size f.ofBinary) {bytes : Bytes}
    (h : bytes.Printed) (hshort : bytes.length < size * (9 * capacity 7)) :
    f.list.Refuses bytes := by
  refine Option.eq_none_iff_forall_ne_some.mpr fun ⟨values, rest⟩ hread => ?_
  obtain ⟨⟨count, behind⟩, hcount, hread⟩ := Option.bind_eq_some_iff.mp hread
  have hmany : size * (9 * capacity 7) ≤ size * count :=
    Nat.mul_le_mul_left size (le_of_number?_of_printed h hcount)
  have hlength := takes_number? 8 hcount
  have hitems := takes_repeated? hsize count hread
  omega

/-- Of a record it is enough that the first field is not read. -/
theorem Refuses.record {α β γ : Type} {name : String} {f : Format α} {fields : Fields β}
    {into : γ → α × β} {of : α × β → γ} {bytes : Bytes} (h : f.Refuses bytes) :
    (Format.record (Fields.required name f fields) into of).Refuses bytes := by
  have hnone : f.ofBinary bytes = none := h
  show (((f.ofBinary bytes).bind _).bind _) = none
  rw [hnone]
  rfl

end Format

/-! ## How long a document is -/

namespace Json

theorem length_decimal_le {n digits : Nat} (h : n < 10 ^ (digits + 1)) :
    (decimal n).length ≤ digits + 1 := by
  induction digits generalizing n with
  | zero =>
    have hdigit : n < 10 := h
    rw [decimal, if_pos hdigit]
    exact Nat.le_refl _
  | succ digits ih =>
    rw [decimal]
    split
    · exact Nat.succ_le_succ (Nat.zero_le _)
    · have hfront := ih (n := n / 10) (by rw [Nat.pow_succ] at h; omega)
      rw [List.length_append]
      exact Nat.succ_le_succ hfront

theorem length_render_int_le {n digits : Nat} (h : n < 10 ^ (digits + 1)) :
    (Json.int n).render.length ≤ digits + 1 := by
  have hpositive : ¬ (n : Int) < 0 := by omega
  have hrender : (Json.int n).render = decimal n := by
    simp [int, render, renderNumber, hpositive]
  rw [hrender]
  exact length_decimal_le h

theorem length_renderItems_le {size : Nat} {items : List Json}
    (h : ∀ item ∈ items, item.render.length ≤ size) :
    (renderItems items).length ≤ (size + 1) * items.length + 1 := by
  induction items with
  | nil => exact Nat.le_add_left ..
  | cons item items ih =>
    have hitem := h item List.mem_cons_self
    have hitems := ih fun other hmem => h other (List.mem_cons_of_mem _ hmem)
    rw [renderItems, List.length_append, List.length_cons, List.length_cons, Nat.mul_succ]
    omega

theorem length_render_array_le {size : Nat} {items : List Json}
    (h : ∀ item ∈ items, item.render.length ≤ size) :
    (Json.array items).render.length ≤ (size + 1) * items.length + 2 := by
  cases items with
  | nil => exact Nat.le_add_left ..
  | cons item items =>
    have hitem := h item List.mem_cons_self
    have hitems := length_renderItems_le fun other hmem => h other (List.mem_cons_of_mem _ hmem)
    rw [render, List.length_append, List.length_cons, List.length_cons, Nat.mul_succ]
    omega

end Json

namespace Format

variable {α : Type}

/-- The documents of a format have so many bytes at most. -/
def Within (size : Nat) (f : Format α) : Prop :=
  ∀ ⦃value json⦄, f.toJson value = some json → json.render.length ≤ size

theorem within_uint32 : Within 10 uint32 := by
  intro n json h
  obtain rfl := Option.some.inj h
  exact Json.length_render_int_le (Nat.lt_of_lt_of_le n.toNat_lt (by decide))

theorem within_uint64 : Within 20 uint64 := by
  intro n json h
  obtain rfl := Option.some.inj h
  exact Json.length_render_int_le (Nat.lt_of_lt_of_le n.toNat_lt (by decide))

/-- Each item of a list takes one byte more than its document. -/
theorem length_render_list_le {f : Format α} {size : Nat} (hsize : Within size f) {values : List α}
    {json : Json} (h : f.list.toJson values = some json) :
    json.render.length ≤ (size + 1) * values.length + 2 := by
  obtain ⟨items, hitems, rfl⟩ := Option.map_eq_some_iff.mp h
  have hall := mapM_eq_some_iff.mp hitems
  have hlength := hall.length_eq
  rw [hlength]
  refine Json.length_render_array_le fun item hmem => ?_
  obtain ⟨place, hlt, rfl⟩ := List.mem_iff_getElem.mp hmem
  exact hsize (hall.get (hlength ▸ hlt) hlt)

end Format

/-! ## Unions -/

namespace Variants

variable {α β : Type} {variants : Variants β}

/-- The alternatives have the numbers below their count and no others. -/
structure Counts (variants : Variants β) : Prop where
  lt : ∀ value, (variants.toBinary value).1 < variants.count
  unread : ∀ number bytes, variants.count ≤ number → variants.ofBinary number bytes = Option.none

theorem counts_none : none.Counts := ⟨nofun, fun _ _ _ => rfl⟩

theorem Counts.plain (h : variants.Counts) (name : String) : (plain name variants).Counts where
  lt
    | .inl _ => Nat.succ_pos _
    | .inr value => Nat.succ_lt_succ (h.lt value)
  unread
    | 0, _, hle => absurd hle (Nat.not_succ_le_zero _)
    | number + 1, bytes, hle =>
      congrArg (Option.map _) (h.unread number bytes (Nat.le_of_succ_le_succ hle))

theorem Counts.holding (h : variants.Counts) (name : String) (f : Format α) :
    (holding name f variants).Counts where
  lt
    | .inl _ => Nat.succ_pos _
    | .inr value => Nat.succ_lt_succ (h.lt value)
  unread
    | 0, _, hle => absurd hle (Nat.not_succ_le_zero _)
    | number + 1, bytes, hle =>
      congrArg (Option.map _) (h.unread number bytes (Nat.le_of_succ_le_succ hle))

end Variants

namespace Format

open Bytes

variable {α β : Type} {variants : Variants α}

/-- The number of an alternative has a zero. -/
theorem hasControl_union (h : variants.Counts) (hfew : variants.count ≤ 9) (into : β → α)
    (of : α → β) (value : β) : (Format.union variants into of).HasControl value := by
  have hnumber : (variants.toBinary (into value)).1 < capacity 3 :=
    Nat.lt_of_lt_of_le (h.lt _) (Nat.le_trans hfew (by decide))
  exact ⟨0, List.mem_append_left _ (zero_mem_littleEndian hnumber), by decide⟩

/-- Printed bytes are too high a number for an alternative. -/
theorem refuses_union (h : variants.Counts) (hfew : variants.count ≤ 9) (into : β → α)
    (of : α → β) {bytes : Bytes} (hbytes : bytes.Printed) :
    (Format.union variants into of).Refuses bytes := by
  refine Option.eq_none_iff_forall_ne_some.mpr fun ⟨value, rest⟩ hread => ?_
  obtain ⟨_, hread, -⟩ := Option.bind_eq_some_iff.mp hread
  obtain ⟨⟨number, behind⟩, hnumber, hread⟩ := Option.bind_eq_some_iff.mp hread
  have hhigh := le_of_number?_of_printed hbytes hnumber
  have hcapacity : 1 ≤ capacity 3 := by decide
  cases (h.unread number behind (by omega)).symm.trans hread

end Format

/-! ## The codecs -/

/-- The two forms of a value are told apart: the binary form has a byte that no document has, and
of the printed bytes of the other form no binary form is read. -/
structure Format.Apart {α : Type} (f : Format α) (value : α) : Prop where
  control : f.HasControl value
  refuses : ∀ json, f.toJson value = some json → json.render.Printed → f.Refuses json.render

/-- **What one codec wrote is not read with the other.** -/
theorem Codec.decode?_of_other {α : Type} [Wire α] {value : α} {codec other : Codec}
    {data : Bytes} (hother : other ≠ codec) (hapart : (Wire.format (α := α)).Apart value)
    (hform : (Wire.format (α := α)).HasForm value) (hencode : codec.encode value = .ok data) :
    other.decode? (α := α) data = none := by
  cases codec with
  | binary =>
    cases other with
    | binary => exact absurd rfl hother
    | json =>
      obtain rfl := Except.ok.inj hencode
      obtain ⟨byte, hmem, hlow⟩ := hapart.control
      cases hparse : Json.parse? ((Wire.format (α := α)).toBinary value) with
      | none => rw [decode?, hparse, Option.bind_none]
      | some json => exact absurd (Json.parse?_printed hparse byte hmem) (by omega)
  | json =>
    cases other with
    | json => exact absurd rfl hother
    | binary =>
      obtain ⟨json, hshown, hwritten, -⟩ := hform
      simp only [encode, hshown] at hencode
      obtain rfl := Except.ok.inj hencode
      have hprinted := Json.parse?_printed (Json.parse?_render hwritten)
      have hrefuses : (Wire.format (α := α)).ofBinary json.render = none :=
        hapart.refuses json hshown hprinted
      rw [decode?, hrefuses, Option.map_none]

end Chronicle
