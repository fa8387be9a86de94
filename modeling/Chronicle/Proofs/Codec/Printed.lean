import Chronicle.Proofs.Codec.Unclosed

/-!
# Which bytes a document has

No byte of a JSON document is below the tab, the first of the blanks: inside a text the control
characters are escaped, and everything else is printed. `Json.parse?_printed` says so of whatever
is read as a document, not only of what was written as one. There is one lemma for each reader,
which says that it only passes over such bytes (`Bytes.Upto`).
-/

namespace Chronicle

namespace Bytes

/-- No byte is below the tab. -/
def Printed (bytes : Bytes) : Prop := ∀ byte ∈ bytes, 9 ≤ byte.toNat

instance (bytes : Bytes) : Decidable bytes.Printed :=
  List.decidableBAll _ bytes

/-- Bytes go on up to others behind, and none of those in between is below the tab. -/
inductive Upto : Bytes → Bytes → Prop
  | here {bytes : Bytes} : Upto bytes bytes
  | past {byte : UInt8} {bytes rest : Bytes} (hbyte : 9 ≤ byte.toNat) (h : Upto bytes rest) :
      Upto (byte :: bytes) rest

namespace Upto

variable {bytes between rest : Bytes}

theorem trans (h : Upto bytes between) (h' : Upto between rest) : Upto bytes rest := by
  induction h with
  | here => exact h'
  | past hbyte _ ih => exact .past hbyte (ih h')

/-- What goes on up to nothing is printed as a whole. -/
theorem printed (h : Upto bytes []) : bytes.Printed := by
  generalize hnil : ([] : Bytes) = rest at h
  induction h with
  | here => subst hnil; exact nofun
  | past hbyte _ ih =>
    intro byte hmem
    rcases List.mem_cons.mp hmem with rfl | hmem
    · exact hbyte
    · exact ih hnil byte hmem

end Upto

/-- A reader passes over printed bytes only. -/
def ReadsPrinted {α : Type} (read : Bytes → Option (α × Bytes)) : Prop :=
  ∀ ⦃bytes value rest⦄, read bytes = some (value, rest) → Upto bytes rest

end Bytes

namespace Json

open Bytes

/-! ## Numbers -/

theorem printed_of_digit? {byte : UInt8} {d : Nat} (h : digit? byte = some d) :
    9 ≤ byte.toNat := by
  unfold digit? at h
  split at h
  · omega
  · cases h

theorem upto_digits (bytes : Bytes) : Upto bytes (digits bytes).2 := by
  induction bytes with
  | nil => exact .here
  | cons byte bytes ih =>
    rw [digits]
    split
    · next d hdigit => exact .past (printed_of_digit? hdigit) ih
    · exact .here

theorem upto_of_digits {bytes rest : Bytes} {ds : List Nat} (h : digits bytes = (ds, rest)) :
    Upto bytes rest := by
  have hdigits := upto_digits bytes
  rwa [h] at hdigits

theorem readsPrinted_whole? : ReadsPrinted whole? := by
  intro bytes n rest h
  unfold whole? at h
  split at h
  · cases h
  · next hdigits =>
    obtain ⟨rfl, rfl⟩ := Prod.mk.inj (Option.some.inj h)
    exact upto_of_digits hdigits
  · cases h
  · next hdigits =>
    obtain ⟨rfl, rfl⟩ := Prod.mk.inj (Option.some.inj h)
    exact upto_of_digits hdigits

theorem readsPrinted_fraction? : ReadsPrinted fraction? := by
  intro bytes ds rest h
  unfold fraction? at h
  split at h
  · split at h
    · cases h
    · next hdigits =>
      obtain ⟨rfl, rfl⟩ := Prod.mk.inj (Option.some.inj h)
      exact .past (by decide) (upto_of_digits hdigits)
  · obtain ⟨rfl, rfl⟩ := Prod.mk.inj (Option.some.inj h)
    exact .here

theorem readsPrinted_unsignedPower? (negative : Bool) :
    ReadsPrinted (unsignedPower? negative) := by
  intro bytes power rest h
  unfold unsignedPower? at h
  split at h
  · cases h
  · next hdigits =>
    obtain ⟨rfl, rfl⟩ := Prod.mk.inj (Option.some.inj h)
    exact upto_of_digits hdigits

theorem readsPrinted_power? : ReadsPrinted power? := by
  intro bytes power rest h
  cases bytes with
  | nil =>
    obtain ⟨-, rfl⟩ := Prod.mk.inj (Option.some.inj h)
    exact .here
  | cons e bytes =>
    simp only [power?] at h
    split at h
    · next he =>
      have hletter : 9 ≤ e.toNat := by
        rcases he with rfl | rfl <;> decide
      refine .past hletter ?_
      split at h
      · exact .past (by decide) (readsPrinted_unsignedPower? false h)
      · exact .past (by decide) (readsPrinted_unsignedPower? true h)
      · exact readsPrinted_unsignedPower? false h
    · obtain ⟨-, rfl⟩ := Prod.mk.inj (Option.some.inj h)
      exact .here

theorem readsPrinted_number? (negative : Bool) : ReadsPrinted (number? negative) := by
  intro bytes n rest h
  obtain ⟨⟨whole, behindWhole⟩, hwhole, h⟩ := Option.bind_eq_some_iff.mp h
  obtain ⟨⟨fraction, behindFraction⟩, hfraction, h⟩ := Option.bind_eq_some_iff.mp h
  obtain ⟨⟨power, behindPower⟩, hpower, heq⟩ := Option.bind_eq_some_iff.mp h
  obtain ⟨rfl, rfl⟩ := Prod.mk.inj (Option.some.inj heq)
  exact (readsPrinted_whole? hwhole).trans
    ((readsPrinted_fraction? hfraction).trans (readsPrinted_power? hpower))

/-! ## Texts, blanks and words -/

theorem printed_of_hexDigit? {byte : UInt8} {d : Nat} (h : hexDigit? byte = some d) :
    9 ≤ byte.toNat := by
  unfold hexDigit? at h
  grind

theorem printed_of_shortEscape? {byte b : UInt8} (h : shortEscape? byte = some b) :
    9 ≤ byte.toNat := by
  unfold shortEscape? at h
  split at h <;> first | omega | cases h

theorem Spells.upto {bytes rest : Bytes} {ps : List Piece} (h : Spells bytes ps rest) :
    Upto bytes rest := by
  have hslash : 9 ≤ (0x5c : UInt8).toNat := by decide
  induction h with
  | quote => exact .past (by decide) .here
  | unit ha hb hc hd _ ih =>
    exact .past hslash (.past (by decide) (.past (printed_of_hexDigit? ha)
      (.past (printed_of_hexDigit? hb) (.past (printed_of_hexDigit? hc)
        (.past (printed_of_hexDigit? hd) ih)))))
  | short _ hshort _ ih => exact .past hslash (.past (printed_of_shortEscape? hshort) ih)
  | plain _ _ hcontrol _ ih => exact .past (by omega) ih

theorem readsPrinted_pieces? : ReadsPrinted pieces? := fun _ _ _ h => (spells_of_pieces? h).upto

theorem printed_of_isBlank {byte : UInt8} (h : isBlank byte = true) : 9 ≤ byte.toNat := by
  simp only [isBlank, Bool.or_eq_true, beq_iff_eq] at h
  rcases h with ((rfl | rfl) | rfl) | rfl <;> decide

theorem upto_skipBlanks (bytes : Bytes) : Upto bytes (skipBlanks bytes) := by
  induction bytes with
  | nil => exact .here
  | cons byte bytes ih =>
    unfold skipBlanks at ih ⊢
    rw [List.dropWhile_cons]
    split
    · next hblank => exact .past (printed_of_isBlank hblank) ih
    · exact .here

theorem upto_of_skipBlanks {bytes rest : Bytes} {byte : UInt8}
    (h : skipBlanks bytes = byte :: rest) (hbyte : 9 ≤ byte.toNat) : Upto bytes rest := by
  have hblanks := upto_skipBlanks bytes
  rw [h] at hblanks
  exact hblanks.trans (.past hbyte .here)

theorem upto_of_expect? {expected bytes rest : Bytes} (hexpected : expected.Printed)
    (h : expect? expected bytes = some rest) : Upto bytes rest := by
  induction expected generalizing bytes with
  | nil =>
    obtain rfl := Option.some.inj h
    exact .here
  | cons e expected ih =>
    cases bytes with
    | nil => cases h
    | cons b bytes =>
      rw [expect?] at h
      split at h
      · next heq =>
        have hb : 9 ≤ b.toNat := heq ▸ hexpected e List.mem_cons_self
        exact .past hb (ih (fun byte hmem => hexpected byte (List.mem_cons_of_mem _ hmem)) h)
      · cases h

/-! ## Documents -/

theorem readsPrinted_value?_succ {depth : Nat} (hitems : ReadsPrinted (items? depth))
    (hmembers : ReadsPrinted (members? depth)) : ReadsPrinted (value? (depth + 1)) := by
  intro bytes json rest h
  rw [value?] at h
  split at h
  · cases h
  next b behind hblanks =>
  have hblank := upto_skipBlanks bytes
  rw [hblanks] at hblank
  refine hblank.trans ?_
  dsimp only at h
  split at h
  case h_4 => -- a text
    next hbyte =>
    obtain ⟨⟨ps, tail⟩, hread, heq⟩ := Option.map_eq_some_iff.mp h
    obtain ⟨rfl, rfl⟩ := Prod.mk.inj heq
    exact .past (by omega) (readsPrinted_pieces? hread)
  case h_5 => -- a number below zero
    obtain ⟨⟨n, tail⟩, hread, heq⟩ := Option.map_eq_some_iff.mp h
    obtain ⟨rfl, rfl⟩ := Prod.mk.inj heq
    exact .past (by omega) (readsPrinted_number? true hread)
  case h_6 => -- an array
    refine .past (by omega) ?_
    split at h
    · next tail hclosed =>
      obtain ⟨rfl, rfl⟩ := Prod.mk.inj (Option.some.inj h)
      exact upto_of_skipBlanks hclosed (by decide)
    · obtain ⟨⟨items, tail⟩, hread, heq⟩ := Option.map_eq_some_iff.mp h
      obtain ⟨rfl, rfl⟩ := Prod.mk.inj heq
      exact hitems hread
  case h_7 => -- an object
    refine .past (by omega) ?_
    split at h
    · next tail hclosed =>
      obtain ⟨rfl, rfl⟩ := Prod.mk.inj (Option.some.inj h)
      exact upto_of_skipBlanks hclosed (by decide)
    · obtain ⟨⟨members, tail⟩, hread, heq⟩ := Option.map_eq_some_iff.mp h
      obtain ⟨rfl, rfl⟩ := Prod.mk.inj heq
      exact hmembers hread
  case h_8 => -- a number
    obtain ⟨⟨n, tail⟩, hread, heq⟩ := Option.map_eq_some_iff.mp h
    obtain ⟨rfl, rfl⟩ := Prod.mk.inj heq
    exact readsPrinted_number? false hread
  -- the three words
  all_goals
    obtain ⟨tail, hread, heq⟩ := Option.map_eq_some_iff.mp h
    obtain ⟨rfl, rfl⟩ := Prod.mk.inj heq
    exact .past (by omega) (upto_of_expect? (by decide) hread)

theorem readsPrinted_items?_succ {depth : Nat} (hvalue : ReadsPrinted (value? depth))
    (hitems : ReadsPrinted (items? depth)) : ReadsPrinted (items? (depth + 1)) := by
  intro bytes items rest h
  obtain ⟨⟨item, behind⟩, hitem, h⟩ := Option.bind_eq_some_iff.mp h
  refine (hvalue hitem).trans ?_
  dsimp only at h
  split at h
  · next tail hclosed =>
    obtain ⟨rfl, rfl⟩ := Prod.mk.inj (Option.some.inj h)
    exact upto_of_skipBlanks hclosed (by decide)
  · next tail hcomma =>
    obtain ⟨⟨others, last⟩, hothers, heq⟩ := Option.bind_eq_some_iff.mp h
    obtain ⟨rfl, rfl⟩ := Prod.mk.inj (Option.some.inj heq)
    exact (upto_of_skipBlanks hcomma (by decide)).trans (hitems hothers)
  · cases h

theorem readsPrinted_members?_succ {depth : Nat} (hvalue : ReadsPrinted (value? depth))
    (hmembers : ReadsPrinted (members? depth)) : ReadsPrinted (members? (depth + 1)) := by
  intro bytes members rest h
  rw [members?] at h
  split at h
  · next behindQuote hquote =>
    refine (upto_of_skipBlanks hquote (by decide)).trans ?_
    obtain ⟨⟨ps, behindName⟩, hname, h⟩ := Option.bind_eq_some_iff.mp h
    refine (readsPrinted_pieces? hname).trans ?_
    dsimp only at h
    split at h
    · next behindColon hcolon =>
      refine (upto_of_skipBlanks hcolon (by decide)).trans ?_
      obtain ⟨⟨value, behindValue⟩, hread, h⟩ := Option.bind_eq_some_iff.mp h
      refine (hvalue hread).trans ?_
      dsimp only at h
      split at h
      · next tail hclosed =>
        obtain ⟨rfl, rfl⟩ := Prod.mk.inj (Option.some.inj h)
        exact upto_of_skipBlanks hclosed (by decide)
      · next tail hcomma =>
        obtain ⟨⟨others, last⟩, hothers, heq⟩ := Option.bind_eq_some_iff.mp h
        obtain ⟨rfl, rfl⟩ := Prod.mk.inj (Option.some.inj heq)
        exact (upto_of_skipBlanks hcomma (by decide)).trans (hmembers hothers)
      · cases h
    · cases h
  · cases h

/-- The readers of documents, of items and of members call each other one step deeper. -/
theorem readsPrinted_documents (depth : Nat) :
    ReadsPrinted (value? depth) ∧ ReadsPrinted (items? depth) ∧ ReadsPrinted (members? depth) := by
  induction depth with
  | zero => exact ⟨nofun, nofun, nofun⟩
  | succ depth ih =>
    obtain ⟨hvalue, hitems, hmembers⟩ := ih
    exact ⟨readsPrinted_value?_succ hitems hmembers, readsPrinted_items?_succ hvalue hitems,
      readsPrinted_members?_succ hvalue hmembers⟩

/-- **No byte of a document is below the tab.** -/
theorem parse?_printed {bytes : Bytes} {json : Json} (h : parse? bytes = some json) :
    bytes.Printed := by
  obtain ⟨⟨value, rest⟩, hread, h⟩ := Option.bind_eq_some_iff.mp h
  dsimp only at h
  split at h
  · next hend =>
    have hrest := upto_skipBlanks rest
    rw [hend] at hrest
    exact (((readsPrinted_documents _).1 hread).trans hrest).printed
  · cases h

end Json

end Chronicle
