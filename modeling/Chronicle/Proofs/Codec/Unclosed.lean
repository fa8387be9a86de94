import Chronicle.Proofs.Codec.JsonForm
import Chronicle.Proofs.Codec.Lookahead

/-!
# JSON documents that were cut short

A document that is no number is not read when some of its last bytes are missing
(`Json.parse?_of_cut`). As in the binary form, what is read of some bytes is read in front of any
others too, with one exception: a number at the very end goes on where more digits follow. Inside a
document that never happens, since a comma or the end of an array or object must come behind each
part; so only documents that are numbers themselves are excepted (`Json.value?_more`).

`Codec.decode_of_cut` puts both forms together, for the formats in which a value's end is told by
its own bytes (`Format.EndsItself`).
-/

namespace Chronicle

/-- What a reader reads of some bytes, if it leaves any, does not depend on what stands behind. -/
def Bytes.Settled {α : Type} (read : Bytes → Option (α × Bytes)) : Prop :=
  ∀ ⦃bytes value rest⦄, read bytes = some (value, rest) → rest ≠ [] →
    ∀ more, read (bytes ++ more) = some (value, rest ++ more)

namespace Json

/-! ## Numbers -/

theorem digits_more {bytes rest : Bytes} {ds : List Nat} (h : digits bytes = (ds, rest))
    (hrest : rest ≠ []) (more : Bytes) : digits (bytes ++ more) = (ds, rest ++ more) := by
  induction bytes generalizing ds with
  | nil =>
    obtain ⟨-, rfl⟩ := Prod.mk.inj h
    exact absurd rfl hrest
  | cons byte bytes ih =>
    rw [digits] at h
    rw [List.cons_append, digits]
    cases hdigit : digit? byte with
    | none =>
      rw [hdigit] at h
      obtain ⟨rfl, rfl⟩ := Prod.mk.inj h
      rfl
    | some d =>
      rw [hdigit] at h
      obtain ⟨rfl, hbehind⟩ := Prod.mk.inj h
      have hread : digits bytes = ((digits bytes).1, rest) := by rw [← hbehind]
      simp only [ih hread]

theorem settled_whole? : Bytes.Settled whole? := by
  intro bytes n rest h hrest more
  unfold whole? at h
  split at h
  · cases h
  · next d behind hdigits =>
    obtain ⟨rfl, rfl⟩ := Prod.mk.inj (Option.some.inj h)
    rw [whole?, digits_more hdigits hrest]
  · cases h
  · next ds behind hempty hone hzero hdigits =>
    obtain ⟨rfl, rfl⟩ := Prod.mk.inj (Option.some.inj h)
    rw [whole?, digits_more hdigits hrest]
    split
    · next heq => exact absurd (Prod.mk.inj heq).1 hempty
    · next heq => exact absurd (Prod.mk.inj heq).1 (hone _)
    · next heq => exact absurd (Prod.mk.inj heq).1 (hzero _)
    · next heq =>
      obtain ⟨rfl, rfl⟩ := Prod.mk.inj heq
      rfl

theorem settled_fraction? : Bytes.Settled fraction? := by
  intro bytes ds rest h hrest more
  unfold fraction? at h
  split at h
  · next behind =>
    split at h
    · cases h
    · next found tail hne hdigits =>
      obtain ⟨rfl, rfl⟩ := Prod.mk.inj (Option.some.inj h)
      rw [List.cons_append, fraction?, digits_more hdigits hrest]
      cases found with
      | nil => exact (hne rfl).elim
      | cons => rfl
  · next hpoint =>
    obtain ⟨rfl, rfl⟩ := Prod.mk.inj (Option.some.inj h)
    obtain ⟨byte, others, rfl⟩ := List.exists_cons_of_ne_nil hrest
    unfold fraction?
    split
    · next heq => exact absurd (List.cons.inj heq).1 fun hbyte => hpoint others (hbyte ▸ rfl)
    · rfl

/-- The digits of a power of ten. -/
def unsignedPower? (negative : Bool) (bytes : Bytes) : Option (Option Int × Bytes) :=
  match digits bytes with
  | ([], _) => none
  | (ds, tail) => some (some (if negative then -(ofDigits ds : Int) else ofDigits ds), tail)

theorem settled_unsignedPower? (negative : Bool) : Bytes.Settled (unsignedPower? negative) := by
  intro bytes power rest h hrest more
  unfold unsignedPower? at h
  split at h
  · cases h
  · next ds tail hne hdigits =>
    obtain ⟨rfl, rfl⟩ := Prod.mk.inj (Option.some.inj h)
    rw [unsignedPower?, digits_more hdigits hrest]
    cases ds with
    | nil => exact (hne rfl).elim
    | cons => rfl

theorem unsignedPower?_ne_nil (negative : Bool) {bytes : Bytes} {read : Option Int × Bytes}
    (h : unsignedPower? negative bytes = some read) : bytes ≠ [] := by
  rintro rfl
  cases h

theorem settled_power? : Bytes.Settled power? := by
  intro bytes power rest h hrest more
  cases bytes with
  | nil =>
    obtain ⟨-, rfl⟩ := Prod.mk.inj (Option.some.inj h)
    exact absurd rfl hrest
  | cons e bytes =>
  simp only [power?, List.cons_append] at h ⊢
  by_cases he : e = 0x65 ∨ e = 0x45
  · rw [if_pos he] at h ⊢
    split at h
    · exact settled_unsignedPower? false h hrest more
    · exact settled_unsignedPower? true h hrest more
    · next hplus hminus =>
      have hmore := settled_unsignedPower? false h hrest more
      obtain ⟨byte, others, rfl⟩ :=
        List.exists_cons_of_ne_nil (unsignedPower?_ne_nil false h)
      split
      · next heq => exact absurd (congrArg (· :: others) (List.cons.inj heq).1) (hplus others)
      · next heq => exact absurd (congrArg (· :: others) (List.cons.inj heq).1) (hminus others)
      · exact hmore
  · rw [if_neg he] at h ⊢
    obtain ⟨rfl, rfl⟩ := Prod.mk.inj (Option.some.inj h)
    rfl

theorem settled_number? (negative : Bool) : Bytes.Settled (number? negative) := by
  intro bytes n rest h hrest more
  obtain ⟨⟨whole, behindWhole⟩, hwhole, h⟩ := Option.bind_eq_some_iff.mp h
  obtain ⟨⟨fraction, behindFraction⟩, hfraction, h⟩ := Option.bind_eq_some_iff.mp h
  obtain ⟨⟨power, behindPower⟩, hpower, heq⟩ := Option.bind_eq_some_iff.mp h
  obtain ⟨rfl, rfl⟩ := Prod.mk.inj (Option.some.inj heq)
  -- neither the fraction nor the power leaves anything of nothing
  have hbehindFraction : behindFraction ≠ [] := by
    rintro rfl
    exact hrest (Prod.mk.inj (Option.some.inj hpower)).2.symm
  have hbehindWhole : behindWhole ≠ [] := by
    rintro rfl
    exact hbehindFraction (Prod.mk.inj (Option.some.inj hfraction)).2.symm
  have hwhole := settled_whole? hwhole hbehindWhole more
  have hfraction := settled_fraction? hfraction hbehindFraction more
  have hpower := settled_power? hpower hrest more
  simp only [number?, hwhole, hfraction, hpower, Option.bind_eq_bind, Option.bind_some,
    Option.pure_def]

/-! ## Texts, blanks and words -/

/-- How the pieces of a text are read of bytes, up to its closing quote. -/
inductive Spells : Bytes → List Piece → Bytes → Prop
  | quote {rest : Bytes} : Spells (0x22 :: rest) [] rest
  | unit {a b c d : UInt8} {i j k l : Nat} {bytes rest : Bytes} {ps : List Piece}
      (ha : hexDigit? a = some i) (hb : hexDigit? b = some j) (hc : hexDigit? c = some k)
      (hd : hexDigit? d = some l) (h : Spells bytes ps rest) :
      Spells (0x5c :: 0x75 :: a :: b :: c :: d :: bytes)
        (.unit ((i * 16 + j) * 256 + k * 16 + l) :: ps) rest
  | short {e b : UInt8} {bytes rest : Bytes} {ps : List Piece} (hunit : e ≠ 0x75)
      (hshort : shortEscape? e = some b) (h : Spells bytes ps rest) :
      Spells (0x5c :: e :: bytes) (.byte b :: ps) rest
  | plain {b : UInt8} {bytes rest : Bytes} {ps : List Piece} (hquote : b ≠ 0x22)
      (hslash : b ≠ 0x5c) (hcontrol : ¬ b.toNat < 0x20) (h : Spells bytes ps rest) :
      Spells (b :: bytes) (.byte b :: ps) rest

theorem spells_of_pieces? {bytes rest : Bytes} {ps : List Piece}
    (h : pieces? bytes = some (ps, rest)) : Spells bytes ps rest := by
  induction bytes using pieces?.induct generalizing ps with
  | case1 => cases h
  | case2 tail =>
    obtain ⟨rfl, rfl⟩ := Prod.mk.inj (Option.some.inj h)
    exact .quote
  | case3 a b c d tail ih =>
    simp only [pieces?, Option.bind_eq_bind, Option.bind_eq_some_iff] at h
    obtain ⟨_, ha, _, hb, _, hc, _, hd, ⟨others, behind⟩, htail, heq⟩ := h
    obtain ⟨rfl, rfl⟩ := Prod.mk.inj (Option.some.inj heq)
    exact .unit ha hb hc hd (ih htail)
  | case4 e tail hunits ih =>
    have hunit : e ≠ 0x75 := by
      rintro rfl
      rw [pieces?] at h
      · cases h
      · exact hunits
    rw [pieces?_escape hunit] at h
    obtain ⟨b, hshort, h⟩ := Option.bind_eq_some_iff.mp h
    obtain ⟨⟨others, behind⟩, htail, heq⟩ := Option.bind_eq_some_iff.mp h
    obtain ⟨rfl, rfl⟩ := Prod.mk.inj (Option.some.inj heq)
    exact .short hunit hshort (ih htail)
  | case5 => cases h
  | case6 b tail hquote hunit hescape hslash hcontrol =>
    rw [pieces?_plain hquote (ne_slash hescape hslash), if_pos hcontrol] at h
    cases h
  | case7 b tail hquote hunit hescape hslash hcontrol ih =>
    have hne := ne_slash hescape hslash
    rw [pieces?_plain hquote hne, if_neg hcontrol] at h
    obtain ⟨⟨others, behind⟩, htail, heq⟩ := Option.bind_eq_some_iff.mp h
    obtain ⟨rfl, rfl⟩ := Prod.mk.inj (Option.some.inj heq)
    exact .plain hquote hne hcontrol (ih htail)
where
  ne_slash {b : UInt8} {tail : Bytes}
      (hescape : ∀ (e : UInt8) (rest : List UInt8), b = 0x5c → tail = e :: rest → False)
      (hslash : b = 0x5c → tail = [] → False) : b ≠ 0x5c := by
    intro heq
    cases tail with
    | nil => exact hslash heq rfl
    | cons e rest => exact hescape e rest heq rfl

theorem Spells.pieces?_eq {bytes rest : Bytes} {ps : List Piece} (h : Spells bytes ps rest) :
    pieces? bytes = some (ps, rest) := by
  induction h with
  | quote => rfl
  | unit ha hb hc hd _ ih =>
    simp only [pieces?, ha, hb, hc, hd, ih, Option.bind_eq_bind, Option.bind_some, Option.pure_def]
  | short hunit hshort _ ih =>
    rw [pieces?_escape hunit, hshort, ih]
    rfl
  | plain hquote hslash hcontrol _ ih =>
    rw [pieces?_plain hquote hslash, if_neg hcontrol, ih]
    rfl

theorem Spells.append {bytes rest : Bytes} {ps : List Piece} (h : Spells bytes ps rest)
    (more : Bytes) : Spells (bytes ++ more) ps (rest ++ more) := by
  induction h with
  | quote => exact .quote
  | unit ha hb hc hd _ ih => exact .unit ha hb hc hd ih
  | short hunit hshort _ ih => exact .short hunit hshort ih
  | plain hquote hslash hcontrol _ ih => exact .plain hquote hslash hcontrol ih

theorem local_pieces? : Bytes.Local pieces? := fun _ _ _ h more =>
  ((spells_of_pieces? h).append more).pieces?_eq

theorem skipBlanks_append {bytes rest : Bytes} {byte : UInt8} (h : skipBlanks bytes = byte :: rest)
    (more : Bytes) : skipBlanks (bytes ++ more) = byte :: (rest ++ more) := by
  unfold skipBlanks at h ⊢
  induction bytes with
  | nil => cases h
  | cons b bytes ih =>
    rw [List.dropWhile_cons] at h
    rw [List.cons_append, List.dropWhile_cons]
    split at h
    · next hblank => rw [if_pos hblank]; exact ih h
    · next hblank =>
      obtain ⟨rfl, rfl⟩ := List.cons.inj h
      rw [if_neg hblank]

theorem expect?_append {expected bytes rest : Bytes} (h : expect? expected bytes = some rest)
    (more : Bytes) : expect? expected (bytes ++ more) = some (rest ++ more) := by
  induction expected generalizing bytes with
  | nil =>
    obtain rfl := Option.some.inj h
    rfl
  | cons e expected ih =>
    cases bytes with
    | nil => cases h
    | cons b bytes =>
      rw [expect?] at h
      rw [List.cons_append, expect?]
      split at h
      · next heq => rw [if_pos heq]; exact ih h
      · cases h

/-! ## Documents -/

theorem ne_nil_of_skipBlanks {bytes rest : Bytes} {byte : UInt8}
    (h : skipBlanks bytes = byte :: rest) : bytes ≠ [] := by
  rintro rfl
  cases h

theorem skipBlanks_append_ne {bytes : Bytes} {byte : UInt8} (hsome : skipBlanks bytes ≠ [])
    (hne : ∀ tail, skipBlanks bytes ≠ byte :: tail) (more tail : Bytes) :
    skipBlanks (bytes ++ more) ≠ byte :: tail := by
  obtain ⟨first, others, hblanks⟩ := List.exists_cons_of_ne_nil hsome
  rw [skipBlanks_append hblanks]
  intro heq
  exact hne others (by rw [hblanks, (List.cons.inj heq).1])

theorem value?_some {depth : Nat} {bytes : Bytes} {read : Json × Bytes}
    (h : value? depth bytes = some read) : skipBlanks bytes ≠ [] := by
  intro hnil
  cases depth with
  | zero => cases h
  | succ depth =>
    rw [value?, hnil] at h
    cases h

theorem items?_some {depth : Nat} {bytes : Bytes} {read : List Json × Bytes}
    (h : items? depth bytes = some read) : skipBlanks bytes ≠ [] := by
  cases depth with
  | zero => cases h
  | succ depth =>
    obtain ⟨_, hitem, -⟩ := Option.bind_eq_some_iff.mp h
    exact value?_some hitem

theorem members?_some {depth : Nat} {bytes : Bytes} {read : List (Option String × Json) × Bytes}
    (h : members? depth bytes = some read) : skipBlanks bytes ≠ [] := by
  intro hnil
  cases depth with
  | zero => cases h
  | succ depth =>
    rw [members?, hnil] at h
    cases h

mutual

/-- What is read as a document is read so in front of more bytes too, but for a number that goes
on to the end. -/
theorem value?_more : ∀ (depth : Nat) {bytes rest : Bytes} {json : Json},
    value? depth bytes = some (json, rest) → (∀ n, json = .number n → rest ≠ []) →
      ∀ (more : Bytes) {deeper : Nat}, depth ≤ deeper →
        value? deeper (bytes ++ more) = some (json, rest ++ more)
  | 0, _, _, _, h, _, _, _, _ => nomatch h
  | depth + 1, bytes, rest, json, h, hnumber, more, 0, hdeeper => absurd hdeeper (by omega)
  | depth + 1, bytes, rest, json, h, hnumber, more, deeper + 1, hdeeper => by
    have hdepth : depth ≤ deeper := Nat.le_of_succ_le_succ hdeeper
    rw [value?] at h
    split at h
    · cases h
    next b behind hblanks =>
    rw [value?, skipBlanks_append hblanks more]
    dsimp only
    split at h
    case h_4 => -- a text
      obtain ⟨⟨ps, tail⟩, hread, heq⟩ := Option.map_eq_some_iff.mp h
      obtain ⟨rfl, rfl⟩ := Prod.mk.inj heq
      simp only [local_pieces? hread more, Option.map_some]
    case h_5 => -- a number below zero
      obtain ⟨⟨n, tail⟩, hread, heq⟩ := Option.map_eq_some_iff.mp h
      obtain ⟨rfl, rfl⟩ := Prod.mk.inj heq
      simp only [settled_number? true hread (hnumber n rfl) more, Option.map_some]
    case h_6 => -- an array
      split at h
      · next tail hclosed =>
        obtain ⟨rfl, rfl⟩ := Prod.mk.inj (Option.some.inj h)
        simp only [skipBlanks_append hclosed]
      · next hopen =>
        obtain ⟨⟨items, tail⟩, hread, heq⟩ := Option.map_eq_some_iff.mp h
        obtain ⟨rfl, rfl⟩ := Prod.mk.inj heq
        have hmore := items?_more depth hread more hdepth
        have hopen := skipBlanks_append_ne (items?_some hread) hopen more
        simp only [hmore, Option.map_some]
    case h_7 => -- an object
      split at h
      · next tail hclosed =>
        obtain ⟨rfl, rfl⟩ := Prod.mk.inj (Option.some.inj h)
        simp only [skipBlanks_append hclosed]
      · next hopen =>
        obtain ⟨⟨members, tail⟩, hread, heq⟩ := Option.map_eq_some_iff.mp h
        obtain ⟨rfl, rfl⟩ := Prod.mk.inj heq
        have hmore := members?_more depth hread more hdepth
        have hopen := skipBlanks_append_ne (members?_some hread) hopen more
        simp only [hmore, Option.map_some]
    case h_8 => -- a number
      obtain ⟨⟨n, tail⟩, hread, heq⟩ := Option.map_eq_some_iff.mp h
      obtain ⟨rfl, rfl⟩ := Prod.mk.inj heq
      have hmore := settled_number? false hread (hnumber n rfl) more
      rw [List.cons_append] at hmore
      simp only [hmore, Option.map_some]
    -- the three words
    all_goals
      obtain ⟨tail, hread, heq⟩ := Option.map_eq_some_iff.mp h
      obtain ⟨rfl, rfl⟩ := Prod.mk.inj heq
      simp only [expect?_append hread, Option.map_some]

theorem items?_more : ∀ (depth : Nat) {bytes rest : Bytes} {items : List Json},
    items? depth bytes = some (items, rest) → ∀ (more : Bytes) {deeper : Nat}, depth ≤ deeper →
      items? deeper (bytes ++ more) = some (items, rest ++ more)
  | 0, _, _, _, h, _, _, _ => nomatch h
  | depth + 1, bytes, rest, items, h, more, 0, hdeeper => absurd hdeeper (by omega)
  | depth + 1, bytes, rest, items, h, more, deeper + 1, hdeeper => by
    have hdepth : depth ≤ deeper := Nat.le_of_succ_le_succ hdeeper
    obtain ⟨⟨item, behind⟩, hitem, h⟩ := Option.bind_eq_some_iff.mp h
    dsimp only at h
    split at h
    · next tail hclosed =>
      obtain ⟨rfl, rfl⟩ := Prod.mk.inj (Option.some.inj h)
      have hmore := value?_more depth hitem (fun _ _ => ne_nil_of_skipBlanks hclosed) more hdepth
      simp only [items?, hmore, Option.bind_eq_bind, Option.bind_some,
        skipBlanks_append hclosed, Option.pure_def]
    · next tail hcomma =>
      obtain ⟨⟨others, last⟩, hothers, heq⟩ := Option.bind_eq_some_iff.mp h
      obtain ⟨rfl, rfl⟩ := Prod.mk.inj (Option.some.inj heq)
      have hmore := value?_more depth hitem (fun _ _ => ne_nil_of_skipBlanks hcomma) more hdepth
      have hothers := items?_more depth hothers more hdepth
      simp only [items?, hmore, Option.bind_eq_bind, Option.bind_some,
        skipBlanks_append hcomma, hothers, Option.pure_def]
    · cases h

theorem members?_more : ∀ (depth : Nat) {bytes rest : Bytes}
    {members : List (Option String × Json)}, members? depth bytes = some (members, rest) →
      ∀ (more : Bytes) {deeper : Nat}, depth ≤ deeper →
        members? deeper (bytes ++ more) = some (members, rest ++ more)
  | 0, _, _, _, h, _, _, _ => nomatch h
  | depth + 1, bytes, rest, members, h, more, 0, hdeeper => absurd hdeeper (by omega)
  | depth + 1, bytes, rest, members, h, more, deeper + 1, hdeeper => by
    have hdepth : depth ≤ deeper := Nat.le_of_succ_le_succ hdeeper
    rw [members?] at h
    split at h
    case h_2 => cases h
    next body hquote =>
    obtain ⟨⟨name, behind⟩, hname, h⟩ := Option.bind_eq_some_iff.mp h
    dsimp only at h
    split at h
    case h_2 => cases h
    next content hcolon =>
    obtain ⟨⟨value, close⟩, hvalue, h⟩ := Option.bind_eq_some_iff.mp h
    dsimp only at h
    have hname := local_pieces? hname more
    split at h
    · next tail hclosed =>
      obtain ⟨rfl, rfl⟩ := Prod.mk.inj (Option.some.inj h)
      have hmore := value?_more depth hvalue (fun _ _ => ne_nil_of_skipBlanks hclosed) more hdepth
      simp only [members?, skipBlanks_append hquote, hname, skipBlanks_append hcolon, hmore,
        Option.bind_eq_bind, Option.bind_some, skipBlanks_append hclosed, Option.pure_def]
    · next tail hcomma =>
      obtain ⟨⟨others, last⟩, hothers, heq⟩ := Option.bind_eq_some_iff.mp h
      obtain ⟨rfl, rfl⟩ := Prod.mk.inj (Option.some.inj heq)
      have hmore := value?_more depth hvalue (fun _ _ => ne_nil_of_skipBlanks hcomma) more hdepth
      have hothers := members?_more depth hothers more hdepth
      simp only [members?, skipBlanks_append hquote, hname, skipBlanks_append hcolon, hmore,
        Option.bind_eq_bind, Option.bind_some, skipBlanks_append hcomma, hothers, Option.pure_def]
    · cases h

end

/-! ## Documents that were cut short -/

/-- The bytes that a document begins with when it is no number. -/
def openings : Bytes := [0x6e, 0x74, 0x66, 0x22, 0x5b, 0x7b]

theorem render_eq_opening {json : Json} (h : ∀ n, json ≠ .number n) :
    ∃ byte rest, json.render = byte :: rest ∧ byte ∈ openings := by
  cases json with
  | null => exact ⟨_, _, rfl, by decide⟩
  | bool b => cases b <;> exact ⟨_, _, rfl, by decide⟩
  | number n => exact absurd rfl (h n)
  | text content => exact ⟨_, _, rfl, by decide⟩
  | array items => cases items <;> exact ⟨_, _, rfl, by decide⟩
  | object members =>
    cases members with
    | nil => exact ⟨_, _, rfl, by decide⟩
    | cons member members => exact ⟨0x7b, _, rfl, by decide⟩

theorem value?_opening {byte : UInt8} (h : byte ∈ openings) {depth : Nat} {bytes rest : Bytes}
    {json : Json} (hread : value? depth (byte :: bytes) = some (json, rest)) (n : Number) :
    json ≠ .number n := by
  rintro rfl
  cases depth with
  | zero => cases hread
  | succ depth =>
    simp only [openings, List.mem_cons, List.not_mem_nil, or_false] at h
    rcases h with rfl | rfl | rfl | rfl | rfl | rfl
    case inr.inr.inr.inr.inl =>
      have hopen : skipBlanks (0x5b :: bytes) = 0x5b :: bytes := rfl
      have hbyte : (0x5b : UInt8).toNat = 0x5b := rfl
      simp only [value?, hopen, hbyte] at hread
      split at hread
      · cases hread
      · obtain ⟨_, -, heq⟩ := Option.map_eq_some_iff.mp hread
        cases heq
    case inr.inr.inr.inr.inr =>
      have hopen : skipBlanks (0x7b :: bytes) = 0x7b :: bytes := rfl
      have hbyte : (0x7b : UInt8).toNat = 0x7b := rfl
      simp only [value?, hopen, hbyte] at hread
      split at hread
      · cases hread
      · obtain ⟨_, -, heq⟩ := Option.map_eq_some_iff.mp hread
        cases heq
    all_goals
      obtain ⟨_, -, heq⟩ := Option.map_eq_some_iff.mp hread
      cases heq

/-- **The compact form of a document that is no number is not read without its last bytes.** -/
theorem parse?_of_cut {json : Json} (hwritten : json.Written) (hnumber : ∀ n, json ≠ .number n)
    {front lost : Bytes} (hcut : front ++ lost = json.render) (hlost : lost ≠ []) :
    parse? front = none := by
  refine Option.eq_none_iff_forall_ne_some.mpr fun found hparse => ?_
  obtain ⟨⟨read, rest⟩, hread, -⟩ := Option.bind_eq_some_iff.mp hparse
  have hfound : ∀ n, read ≠ .number n := by
    obtain ⟨byte, others, hrender, hopening⟩ := render_eq_opening hnumber
    cases front with
    | nil => exact absurd rfl (value?_some hread)
    | cons first front =>
      rw [hrender] at hcut
      obtain ⟨rfl, -⟩ := List.cons.inj hcut
      exact value?_opening hopening hread
  -- both readings of the whole, from the front and from the document, with depth for either
  have hlonger := value?_more _ hread (fun n heq => absurd heq (hfound n)) lost
    (Nat.le_max_left _ json.render.length)
  have hwhole := value?_render json _ hwritten
    (Nat.le_max_right (2 * front.length + 2) json.render.length) .nothing
  rw [List.append_nil] at hwhole
  rw [hcut, hwhole] at hlonger
  have hnil : rest ++ lost = [] := (Prod.mk.inj (Option.some.inj hlonger)).2.symm
  exact hlost (List.append_eq_nil_iff.mp hnil).2

end Json

/-! ## Formats that tell where a value ends -/

/-- Nothing is shown as a number alone. -/
def Json.Delimited {α : Type} (shown : α → Option Json) : Prop :=
  ∀ ⦃value json⦄, shown value = some json → ∀ n, json ≠ .number n

theorem Format.delimited_record {α β : Type} (fields : Fields α) (into : β → α) (of : α → β) :
    Json.Delimited (Format.record fields into of).toJson := by
  intro value json h
  obtain ⟨members, -, rfl⟩ := Option.map_eq_some_iff.mp h
  exact nofun

namespace Variants

variable {α β : Type} {variants : Variants β}

theorem delimited_none : Json.Delimited none.toJson := fun value => value.elim

theorem delimited_plain (h : Json.Delimited variants.toJson) (name : String) :
    Json.Delimited (plain name variants).toJson
  | .inl _, _, hshown => by
    obtain rfl := Option.some.inj hshown
    exact nofun
  | .inr _, _, hshown => h hshown

theorem delimited_holding (h : Json.Delimited variants.toJson) (name : String) (f : Format α) :
    Json.Delimited (holding name f variants).toJson
  | .inl _, _, hshown => by
    obtain ⟨content, -, rfl⟩ := Option.map_eq_some_iff.mp hshown
    exact nofun
  | .inr _, _, hshown => h hshown

end Variants

theorem Format.delimited_union {α β : Type} {variants : Variants α}
    (h : Json.Delimited variants.toJson) (into : β → α) (of : α → β) :
    Json.Delimited (Format.union variants into of).toJson :=
  fun _ _ hshown => h hshown

/-- In either form a value's end is told by its own bytes. -/
structure Format.EndsItself {α : Type} (f : Format α) : Prop where
  binary : Bytes.Local f.ofBinary
  json : Json.Delimited f.toJson

/-- **The bytes of a value without some of the last are not read, with either codec**, where the
format tells the value's end and the whole bytes are read back. -/
theorem Codec.decode_of_cut {α : Type} [Wire α] {codec : Codec} {value : α} {data front : Bytes}
    (hends : (Wire.format (α := α)).EndsItself)
    (hback : codec = .binary → (Wire.format (α := α)).ReadsBack value)
    (hform : (Wire.format (α := α)).HasForm value) (hencode : codec.encode value = .ok data)
    (hcut : front <+: data) (hshort : front ≠ data) :
    codec.decode (α := α) front = .error (.decode (Wire.typeName α) CodecError.untold) := by
  obtain ⟨lost, rfl⟩ := hcut
  have hlost : lost ≠ [] := fun heq => hshort (by rw [heq, List.append_nil])
  have hnone : codec.decode? (α := α) front = none := by
    cases codec with
    | binary =>
      have hbinary := (hback rfl).of_cut hends.binary (Except.ok.inj hencode).symm hlost
      rw [decode?, hbinary, Option.map_none]
    | json =>
      obtain ⟨json, hshown, hwritten, -⟩ := hform
      simp only [encode, hshown] at hencode
      have hunread := Json.parse?_of_cut hwritten (hends.json hshown)
        (Except.ok.inj hencode).symm hlost
      rw [decode?, hunread, Option.bind_none]
  rw [decode, hnone]

end Chronicle
