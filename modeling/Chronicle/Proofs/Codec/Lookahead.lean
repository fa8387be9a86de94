import Chronicle.Proofs.Codec.Binary

/-!
# Reading the binary form looks at nothing behind

What a format reads of some bytes, it also reads of them in front of any others, and leaves those
behind (`Bytes.Local`). This is a law of the format, for whatever bytes, and there is a lemma for
every way of putting formats together.

Together with the round trip it says that a value's bytes are of no use when some of the last are
missing (`Format.ReadsBack.of_cut`): were they read, the whole bytes would be read in the same way
and the missing ones left behind, but the whole bytes are read to their end.
-/

namespace Chronicle

namespace Bytes

variable {α β : Type}

/-- What a reader reads of some bytes does not depend on what stands behind them. -/
def Local (read : Bytes → Option (α × Bytes)) : Prop :=
  ∀ ⦃bytes value rest⦄, read bytes = some (value, rest) →
    ∀ more, read (bytes ++ more) = some (value, rest ++ more)

theorem Local.bind {read : Bytes → Option (α × Bytes)} {next : α → Bytes → Option (β × Bytes)}
    (hread : Local read) (hnext : ∀ value, Local (next value)) :
    Local fun bytes => (read bytes).bind fun (value, rest) => next value rest := by
  intro bytes value rest h more
  obtain ⟨⟨first, between⟩, hfirst, hsecond⟩ := Option.bind_eq_some_iff.mp h
  have hmore := hread hfirst more
  simp only [hmore, Option.bind_some]
  exact hnext first hsecond more

/-- A reader that only turns values into others, or refuses them. -/
theorem local_convert (of? : α → Option β) (value : α) :
    Local fun rest => (of? value).bind fun converted => some (converted, rest) := by
  intro bytes converted rest h more
  obtain ⟨found, hfound, h⟩ := Option.bind_eq_some_iff.mp h
  obtain ⟨rfl, rfl⟩ := Prod.mk.inj (Option.some.inj h)
  simp only [hfound, Option.bind_some]

theorem Local.map {read : Bytes → Option (α × Bytes)} (h : Local read) (convert : α → β) :
    Local fun bytes => (read bytes).map fun (value, rest) => (convert value, rest) := by
  intro bytes value rest hmap more
  obtain ⟨⟨first, between⟩, hfirst, heq⟩ := Option.map_eq_some_iff.mp hmap
  obtain ⟨rfl, rfl⟩ := Prod.mk.inj heq
  simp only [h hfirst more, Option.map_some]

theorem local_split? (count : Nat) : Local (split? count) := by
  induction count with
  | zero =>
    intro bytes front rest h more
    obtain ⟨rfl, rfl⟩ := Prod.mk.inj (Option.some.inj h)
    rfl
  | succ count ih =>
    intro bytes front rest h more
    cases bytes with
    | nil => cases h
    | cons byte bytes =>
      cases hsplit : split? count bytes with
      | none => rw [split?, hsplit] at h; cases h
      | some parts =>
        rw [split?, hsplit] at h
        obtain ⟨rfl, rfl⟩ := Prod.mk.inj (Option.some.inj h)
        rw [List.cons_append, split?, ih hsplit more]

theorem local_number? (width : Nat) : Local (number? width) := (local_split? width).map toNat

end Bytes

/-! ## Formats -/

namespace Format

open Bytes

variable {α β : Type}

theorem local_refine {f : Format α} (h : Local f.ofBinary) (into : β → α) (of? : α → Option β) :
    Local (f.refine into of?).ofBinary := h.bind fun value => local_convert of? value

theorem local_rename {f : Format α} (h : Local f.ofBinary) (into : β → α) (of : α → β) :
    Local (f.rename into of).ofBinary := local_refine h into (some ∘ of)

theorem local_uint32 : Local uint32.ofBinary := local_rename (local_number? 4) _ _

theorem local_uint64 : Local uint64.ofBinary := local_rename (local_number? 8) _ _

theorem local_bool : Local bool.ofBinary := by
  intro bytes value rest h more
  cases bytes with
  | nil => cases h
  | cons byte bytes =>
    simp only [bool] at h
    simp only [bool, List.cons_append]
    split at h
    · next hfalse =>
      obtain ⟨rfl, rfl⟩ := Prod.mk.inj (Option.some.inj h)
      rw [if_pos hfalse]
    next hfalse =>
    split at h
    · next htrue =>
      obtain ⟨rfl, rfl⟩ := Prod.mk.inj (Option.some.inj h)
      rw [if_neg hfalse, if_pos htrue]
    · cases h

theorem local_string : Local string.ofBinary :=
  ((local_number? 8).bind fun size => local_split? size).bind fun content =>
    local_convert toText? content

theorem local_option {f : Format α} (hlocal : Local f.ofBinary) : Local f.option.ofBinary := by
  intro bytes value rest h more
  cases bytes with
  | nil => cases h
  | cons byte bytes =>
    simp only [option] at h
    simp only [option, List.cons_append]
    split at h
    · next hnone =>
      obtain ⟨rfl, rfl⟩ := Prod.mk.inj (Option.some.inj h)
      rw [if_pos hnone]
    next hnone =>
    split at h
    · next hsome =>
      rw [if_neg hnone, if_pos hsome]
      exact hlocal.map some h more
    · cases h

theorem local_repeated? {f : Format α} (h : Local f.ofBinary) (count : Nat) :
    Local (repeated? f.ofBinary count) := by
  induction count with
  | zero =>
    intro bytes values rest hread more
    obtain ⟨rfl, rfl⟩ := Prod.mk.inj (Option.some.inj hread)
    rfl
  | succ count ih =>
    exact h.bind fun value => ih.bind fun values => local_convert some (value :: values)

theorem local_list {f : Format α} (h : Local f.ofBinary) : Local f.list.ofBinary :=
  (local_number? 8).bind fun count => local_repeated? h count

end Format

/-! ## Records and unions -/

namespace Fields

variable {α β : Type}

theorem local_none : Bytes.Local none.ofBinary := by
  intro bytes value rest h more
  obtain ⟨rfl, rfl⟩ := Prod.mk.inj (Option.some.inj h)
  rfl

theorem local_required {f : Format α} {fields : Fields β} (hfirst : Bytes.Local f.ofBinary)
    (hothers : Bytes.Local fields.ofBinary) (name : String) :
    Bytes.Local (required name f fields).ofBinary :=
  hfirst.bind fun first => hothers.bind fun others => Bytes.local_convert some (first, others)

end Fields

theorem Format.local_record {α β : Type} {fields : Fields α} (h : Bytes.Local fields.ofBinary)
    (into : β → α) (of : α → β) : Bytes.Local (Format.record fields into of).ofBinary :=
  local_rename (f := fields.format false) h into of

namespace Variants

variable {α β : Type} {f : Format α} {variants : Variants β}

/-- Whatever the number of an alternative, its content is read without a look at what follows. -/
def Local (variants : Variants β) : Prop := ∀ number, Bytes.Local (variants.ofBinary number)

theorem local_none : none.Local := fun _ _ value => value.elim

theorem Local.plain (h : variants.Local) (name : String) : (plain name variants).Local
  | 0, bytes, value, rest, hread, more => by
    obtain ⟨rfl, rfl⟩ := Prod.mk.inj (Option.some.inj hread)
    rfl
  | number + 1, _, _, _, hread, more => (h number).map Sum.inr hread more

theorem Local.holding (hf : Bytes.Local f.ofBinary) (h : variants.Local) (name : String) :
    (holding name f variants).Local
  | 0, _, _, _, hread, more => hf.map Sum.inl hread more
  | number + 1, _, _, _, hread, more => (h number).map Sum.inr hread more

end Variants

theorem Format.local_union {α β : Type} {variants : Variants α} (h : variants.Local)
    (into : β → α) (of : α → β) : Bytes.Local (Format.union variants into of).ofBinary :=
  local_rename (f := variants.format) ((Bytes.local_number? 4).bind fun number => h number) into of

/-! ## Bytes that were cut short -/

/-- The bytes of a value without some of the last are not read. -/
theorem Format.ReadsBack.of_cut {α : Type} {f : Format α} {value : α} (hback : f.ReadsBack value)
    (hlocal : Bytes.Local f.ofBinary) {front lost : Bytes} (hcut : front ++ lost = f.toBinary value)
    (hlost : lost ≠ []) : f.ofBinary front = none := by
  refine Option.eq_none_iff_forall_ne_some.mpr fun (found, rest) hread => ?_
  have hlonger := hlocal hread lost
  have hwhole := hback []
  rw [List.append_nil, ← hcut, hlonger] at hwhole
  have hnil : rest ++ lost = [] := (Prod.mk.inj (Option.some.inj hwhole)).2
  exact hlost (List.append_eq_nil_iff.mp hnil).2

end Chronicle
