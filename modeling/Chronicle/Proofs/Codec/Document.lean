import Chronicle.Codec.Number
import Chronicle.Proofs.Codec.Binary

/-!
# Reading back JSON documents

A document whose texts have a content and whose numbers have digits, as the writer makes them, is
read back of its compact form (`Json.parse?_render`).

Each part is read in front of what may follow it. Behind a number this matters: it must be no
digit, no point and no power. So documents are read in front of the ends of arrays and objects and
of the comma between their parts (`Ends`), and by recursion over the tree; a document has more
bytes than nested steps, and its bytes are depth enough.
-/

namespace Chronicle

namespace Json

/-! ## Digits -/

theorem digit?_digitByte {d : Nat} (h : d < 10) : digit? (digitByte d) = some d := by
  have hbyte : (digitByte d).toNat = 48 + d := by
    rw [digitByte, UInt8.toNat_ofNat']
    omega
  rw [digit?, hbyte, if_pos (by omega), Nat.add_sub_cancel_left]

/-- The digits in front end where what is behind them has none. -/
theorem digits_append {ds : List Nat} (h : ∀ d ∈ ds, d < 10) {rest : Bytes}
    (hrest : digits rest = ([], rest)) : digits (ds.map digitByte ++ rest) = (ds, rest) := by
  induction ds with
  | nil => exact hrest
  | cons d ds ih =>
    have hbehind := ih fun other hin => h other (List.mem_cons_of_mem _ hin)
    rw [List.map_cons, List.cons_append, digits, digit?_digitByte (h d (List.mem_cons_self ..)),
      hbehind]

namespace Number

theorem lt_of_mem_digitsOf {n d : Nat} (h : d ∈ digitsOf n) : d < 10 := by
  induction n using Nat.strongRecOn with
  | ind n ih =>
    rw [digitsOf] at h
    split at h
    · next hlt => exact List.mem_singleton.mp h ▸ hlt
    · next hge =>
      rcases List.mem_append.mp h with h | h
      · exact ih (n / 10) (by omega) h
      · exact List.mem_singleton.mp h ▸ Nat.mod_lt n (by decide)

theorem ofDigits_digitsOf (n : Nat) : ofDigits (digitsOf n) = n := by
  induction n using Nat.strongRecOn with
  | ind n ih =>
    rw [digitsOf]
    split
    · exact Nat.zero_add n
    · next hge =>
      have hfront : (digitsOf (n / 10)).foldl (fun acc d => acc * 10 + d) 0 = n / 10 :=
        ih (n / 10) (by omega)
      rw [ofDigits, List.foldl_append, hfront]
      show n / 10 * 10 + n % 10 = n
      omega

/-- A number of two digits and more begins with a digit that is not zero. -/
theorem digitsOf_cases (n : Nat) :
    (n < 10 ∧ digitsOf n = [n]) ∨
      ∃ first second rest, digitsOf n = first :: second :: rest ∧ first ≠ 0 := by
  induction n using Nat.strongRecOn with
  | ind n ih =>
    rw [digitsOf]
    split
    · next hlt => exact Or.inl ⟨hlt, rfl⟩
    · next hge =>
      refine Or.inr ?_
      rcases ih (n / 10) (by omega) with ⟨-, hone⟩ | ⟨first, second, rest, hmore, hne⟩
      · exact ⟨n / 10, n % 10, [], by rw [hone]; rfl, by omega⟩
      · exact ⟨first, second, rest ++ [n % 10], by rw [hmore]; rfl, hne⟩

theorem decimal_eq (n : Nat) : decimal n = (digitsOf n).map digitByte := by
  induction n using Nat.strongRecOn with
  | ind n ih =>
    rw [decimal, digitsOf]
    split
    · rfl
    · next hge => rw [ih (n / 10) (by omega), List.map_append]; rfl

end Number

theorem digits_decimal (n : Nat) {rest : Bytes} (hrest : digits rest = ([], rest)) :
    digits (decimal n ++ rest) = (Number.digitsOf n, rest) := by
  rw [Number.decimal_eq]
  exact digits_append (fun _ => Number.lt_of_mem_digitsOf) hrest

/-! ## Numbers -/

theorem whole?_decimal (n : Nat) {rest : Bytes} (hrest : digits rest = ([], rest)) :
    whole? (decimal n ++ rest) = some (n, rest) := by
  have hread := digits_decimal n hrest
  rcases Number.digitsOf_cases n with ⟨-, hone⟩ | ⟨first, second, others, hmore, hne⟩
  · rw [hone] at hread
    rw [whole?, hread]
  · have hvalue := Number.ofDigits_digitsOf n
    rw [hmore] at hread hvalue
    obtain ⟨before, rfl⟩ := Nat.exists_eq_succ_of_ne_zero hne
    rw [whole?, hread]
    exact congrArg (fun value => some (value, rest)) hvalue

/-- What follows a document inside another, or at the end. -/
inductive Ends : Bytes → Prop
  | nothing : Ends []
  | comma (rest : Bytes) : Ends (0x2c :: rest)
  | array (rest : Bytes) : Ends (0x5d :: rest)
  | object (rest : Bytes) : Ends (0x7d :: rest)

theorem Ends.digits_eq {rest : Bytes} (h : Ends rest) : digits rest = ([], rest) := by
  cases h <;> rfl

/-- The digits of the fraction are digits. -/
def Number.Written (n : Number) : Prop := ∀ d ∈ n.fraction, d < 10

theorem decimal_eq_cons (n : Nat) :
    ∃ d rest, d < 10 ∧ decimal n = digitByte d :: rest := by
  have hdigits : ∀ d ∈ Number.digitsOf n, d < 10 := fun _ => Number.lt_of_mem_digitsOf
  rw [Number.decimal_eq]
  rcases Number.digitsOf_cases n with ⟨hlt, hone⟩ | ⟨first, second, others, hmore, -⟩
  · exact ⟨n, [], hlt, by rw [hone]; rfl⟩
  · rw [hmore] at hdigits ⊢
    exact ⟨first, _, hdigits first (List.mem_cons_self ..), rfl⟩

def renderFraction (ds : List Nat) : Bytes :=
  if ds = [] then [] else 0x2e :: ds.map digitByte

/-- The power of ten of a number as it is written. -/
def renderPower : Option Int → Bytes
  | none => []
  | some e => 0x65 :: ((if e < 0 then [0x2d] else []) ++ decimal e.natAbs)

theorem renderNumber_eq (n : Number) :
    renderNumber n = (if n.negative then [0x2d] else []) ++
      (decimal n.whole ++ (renderFraction n.fraction ++ renderPower n.exponent)) := by
  unfold renderNumber
  cases n.exponent <;> simp only [renderFraction, renderPower, List.append_assoc, List.cons_append]

theorem fraction?_append {ds : List Nat} (h : ∀ d ∈ ds, d < 10) {rest : Bytes}
    (hdigits : digits rest = ([], rest)) (hpoint : fraction? rest = some ([], rest)) :
    fraction? (renderFraction ds ++ rest) = some (ds, rest) := by
  cases ds with
  | nil => exact hpoint
  | cons d ds =>
    have hread := digits_append h hdigits
    rw [renderFraction, if_neg (List.cons_ne_nil _ _), List.cons_append, fraction?, hread]

theorem power?_append (power : Option Int) {rest : Bytes} (h : Ends rest) :
    power? (renderPower power ++ rest) = some (power, rest) := by
  cases power with
  | none => cases h <;> rfl
  | some e =>
  have hread := digits_decimal e.natAbs h.digits_eq
  have hvalue := Number.ofDigits_digitsOf e.natAbs
  have hsome : ∃ first more, Number.digitsOf e.natAbs = first :: more := by
    rcases Number.digitsOf_cases e.natAbs with ⟨-, hone⟩ | ⟨first, second, more, hmore, -⟩
    · exact ⟨_, _, hone⟩
    · exact ⟨_, _, hmore⟩
  obtain ⟨first, more, hdigits⟩ := hsome
  rw [hdigits] at hread hvalue
  by_cases hneg : e < 0
  · simp only [renderPower, if_pos hneg, List.cons_append, List.nil_append, power?, true_or,
      if_true, hread, hvalue]
    rw [show -(e.natAbs : Int) = e by omega]
  · obtain ⟨d, others, hd, hcons⟩ := decimal_eq_cons e.natAbs
    -- the first byte is a digit, and so no sign
    have hsign : ∀ sign, sign < 48 → digitByte d ≠ UInt8.ofNat sign := by
      intro sign hlt heq
      rw [← UInt8.toNat_inj, digitByte, UInt8.toNat_ofNat', UInt8.toNat_ofNat'] at heq
      omega
    rw [renderPower, if_neg hneg, List.nil_append, List.cons_append, hcons, List.cons_append]
    rw [hcons, List.cons_append] at hread
    simp only [power?, true_or, if_true]
    split
    · next heq => exact absurd (List.cons.inj heq).1 (hsign 0x2b (by decide))
    · next heq => exact absurd (List.cons.inj heq).1 (hsign 0x2d (by decide))
    · rw [hread]
      show some (some (ofDigits (first :: more) : Int), rest) = _
      rw [hvalue, show (e.natAbs : Int) = e by omega]

/-- Behind the whole part of a number there is no digit, and behind its fraction no point. -/
theorem digits_behind_whole (ds : List Nat) (power : Option Int) {rest : Bytes} (h : Ends rest) :
    digits (renderPower power ++ rest) = ([], renderPower power ++ rest) ∧
      fraction? (renderPower power ++ rest) = some ([], renderPower power ++ rest) ∧
      digits (renderFraction ds ++ (renderPower power ++ rest)) =
        ([], renderFraction ds ++ (renderPower power ++ rest)) := by
  cases power with
  | none => cases ds <;> cases h <;> exact ⟨rfl, rfl, rfl⟩
  | some e => cases ds <;> exact ⟨rfl, rfl, rfl⟩

/-- A number is read back behind its sign. -/
theorem number?_append {n : Number} (hwritten : n.Written) {rest : Bytes} (h : Ends rest) :
    number? n.negative (decimal n.whole ++
      (renderFraction n.fraction ++ renderPower n.exponent) ++ rest) = some (n, rest) := by
  obtain ⟨hpower, hpoint, hfraction⟩ := digits_behind_whole n.fraction n.exponent h
  rw [List.append_assoc, List.append_assoc]
  show (whole? _).bind _ = _
  rw [whole?_decimal n.whole hfraction]
  show (fraction? _).bind _ = _
  rw [fraction?_append hwritten hpower hpoint]
  show (power? _).bind _ = _
  rw [power?_append n.exponent h]
  rfl

/-! ## Texts -/

theorem charBytes_control {n : Nat} (h : n < 0x20) : charBytes n = [UInt8.ofNat n] := by
  have hall : ∀ n < 0x20,
      (String.singleton (Char.ofNat n)).toUTF8.data.toList = [UInt8.ofNat n] := by decide
  rw [charBytes, Bytes.ofText, Bytes.toList_eq]
  exact hall n h

theorem hexDigit?_hexByte {d : Nat} (h : d < 16) : hexDigit? (hexByte d) = some d := by
  have hall : ∀ d < 16, hexDigit? (hexByte d) = some d := by decide
  exact hall d h

/-- How a byte stands in a text: behind a backslash, as a number, or as it is. -/
inductive Escapes (byte : UInt8) : Bytes → Prop
  | short {e : UInt8} (hunit : e ≠ 0x75) (h : shortEscape? e = some byte) :
      Escapes byte [0x5c, e]
  | unit {high low : UInt8} {h l : Nat} (hhigh : hexDigit? high = some h)
      (hlow : hexDigit? low = some l) (hcontrol : h * 16 + l < 0x20)
      (hbyte : UInt8.ofNat (h * 16 + l) = byte) :
      Escapes byte [0x5c, 0x75, 0x30, 0x30, high, low]
  | plain (hquote : byte ≠ 0x22) (hslash : byte ≠ 0x5c) (h : ¬byte.toNat < 0x20) :
      Escapes byte [byte]

theorem escapes_escapedByte (byte : UInt8) : Escapes byte (escapedByte byte) := by
  unfold escapedByte
  split
  case h_8 hquote hslash _ _ _ _ _ =>
    split
    · next hcontrol =>
      have hsplit : byte.toNat / 16 * 16 + byte.toNat % 16 = byte.toNat := by omega
      refine .unit (hexDigit?_hexByte (by omega)) (hexDigit?_hexByte (by omega)) ?_ ?_
      · rwa [hsplit]
      · rw [hsplit, UInt8.ofNat_toNat]
    · next hcontrol =>
      exact .plain (fun heq => hquote (by rw [heq]; rfl)) (fun heq => hslash (by rw [heq]; rfl))
        hcontrol
  -- the bytes that have an escape of their own
  all_goals next h => exact .short (by decide) (congrArg some (UInt8.toNat_inj.mp h.symm))

theorem pieces?_escape {e : UInt8} (hunit : e ≠ 0x75) (rest : Bytes) :
    pieces? (0x5c :: e :: rest) =
      (shortEscape? e).bind fun b => (pieces? rest).bind fun read =>
        some (.byte b :: read.1, read.2) := by
  rw [pieces?]
  · rfl
  · intro a b c d more heq
    exact absurd heq hunit

theorem pieces?_plain {byte : UInt8} (hquote : byte ≠ 0x22) (hslash : byte ≠ 0x5c)
    (rest : Bytes) :
    pieces? (byte :: rest) =
      if byte.toNat < 0x20 then none
      else (pieces? rest).bind fun read => some (.byte byte :: read.1, read.2) := by
  rw [pieces?]
  · rfl
  · exact hquote
  · exact fun _ _ _ _ _ heq => absurd heq hslash
  · exact fun _ _ heq => absurd heq hslash
  · exact fun heq => absurd heq hslash

theorem Escapes.pieces?_append {byte : UInt8} {escaped : Bytes} (h : Escapes byte escaped)
    {rest tail : Bytes} {ps : List Piece} (hrest : pieces? rest = some (ps, tail)) :
    ∃ p, pieces? (escaped ++ rest) = some (p :: ps, tail) ∧
      (p = .byte byte ∨ ∃ u, p = .unit u ∧ u < 0x20 ∧ UInt8.ofNat u = byte) := by
  cases h with
  | @short e hunit hshort =>
    refine ⟨.byte byte, ?_, Or.inl rfl⟩
    show pieces? (0x5c :: e :: rest) = _
    rw [pieces?_escape hunit, hshort, hrest]
    rfl
  | @unit high low h l hhigh hlow hcontrol hbyte =>
    refine ⟨.unit (h * 16 + l), ?_, Or.inr ⟨_, rfl, hcontrol, hbyte⟩⟩
    show (do
      let u := ((← hexDigit? 0x30) * 16 + (← hexDigit? 0x30)) * 256 + (← hexDigit? high) * 16 +
        (← hexDigit? low)
      let read ← pieces? rest
      return (Piece.unit u :: read.1, read.2)) = _
    rw [hhigh, hlow, hrest]
    simp [hexDigit?]
  | plain hquote hslash hcontrol =>
    refine ⟨.byte byte, ?_, Or.inl rfl⟩
    show pieces? (byte :: rest) = _
    rw [pieces?_plain hquote hslash, if_neg hcontrol, hrest]
    rfl

/-- A unit in front of the surrogates is a character of its own. -/
theorem joinPieces?_unit {u : Nat} (h : u < 0xd800) (ps : List Piece) :
    joinPieces? (.unit u :: ps) = (joinPieces? ps).map (charBytes u ++ ·) := by
  rw [joinPieces?.eq_def]
  split
  · next heq => cases heq
  · next heq => cases heq
  · next heq =>
    obtain ⟨hu, rfl⟩ := List.cons.inj heq
    obtain rfl := Piece.unit.inj hu
    rw [if_neg (by omega), if_neg (by omega)]
  · next heq =>
    obtain ⟨hu, rfl⟩ := List.cons.inj heq
    obtain rfl := Piece.unit.inj hu
    rw [if_neg (by omega)]

/-- The pieces of a text form the bytes that it was written from. -/
theorem pieces?_escapedByte (bytes rest : Bytes) :
    ∃ ps, pieces? (bytes.flatMap escapedByte ++ 0x22 :: rest) = some (ps, rest) ∧
      joinPieces? ps = some bytes := by
  induction bytes with
  | nil => exact ⟨[], rfl, rfl⟩
  | cons byte bytes ih =>
    obtain ⟨ps, hrest, hjoin⟩ := ih
    obtain ⟨p, hread, hpiece⟩ := (escapes_escapedByte byte).pieces?_append hrest
    refine ⟨p :: ps, by rw [List.flatMap_cons, List.append_assoc]; exact hread, ?_⟩
    rcases hpiece with rfl | ⟨u, rfl, hcontrol, rfl⟩
    · rw [joinPieces?, hjoin]
      rfl
    · rw [joinPieces?_unit (by omega), hjoin, charBytes_control hcontrol]
      rfl

/-- A text is read back of what stands behind its first quote. -/
theorem pieces?_renderText (content : String) (rest : Bytes) :
    ∃ body, renderText content ++ rest = 0x22 :: body ∧
      ∃ ps, pieces? body = some (ps, rest) ∧ content? ps = some content := by
  obtain ⟨ps, hread, hjoin⟩ := pieces?_escapedByte (Bytes.ofText content) rest
  refine ⟨(Bytes.ofText content).flatMap escapedByte ++ 0x22 :: rest, ?_, ps, hread, ?_⟩
  · rw [renderText, List.cons_append, List.cons_append, List.append_assoc]
    rfl
  · rw [content?, hjoin]
    exact Bytes.toText?_ofText content

/-! ## Documents -/

mutual

/-- A document as the writer is given one: its texts and names have a content, and its numbers
have digits. -/
def Written : Json → Prop
  | .null | .bool _ => True
  | .number n => n.Written
  | .text content => content.isSome
  | .array items => WrittenItems items
  | .object members => WrittenMembers members

def WrittenItems : List Json → Prop
  | [] => True
  | item :: items => item.Written ∧ WrittenItems items

def WrittenMembers : List (Option String × Json) → Prop
  | [] => True
  | (name, value) :: members => name.isSome ∧ value.Written ∧ WrittenMembers members

end

theorem written_str (content : String) : (str content).Written := rfl

theorem written_int (n : Int) : (int n).Written := fun _ h => nomatch h

theorem skipBlanks_cons {byte : UInt8} (rest : Bytes) (h : isBlank byte = false) :
    skipBlanks (byte :: rest) = byte :: rest := by
  rw [skipBlanks, List.dropWhile_cons_of_neg (by rw [h]; decide)]

theorem cases_of_lt_ten {d : Nat} (h : d < 10) :
    d = 0 ∨ d = 1 ∨ d = 2 ∨ d = 3 ∨ d = 4 ∨ d = 5 ∨ d = 6 ∨ d = 7 ∨ d = 8 ∨ d = 9 := by
  omega

theorem value?_digitByte {d : Nat} (h : d < 10) (depth : Nat) (rest : Bytes) :
    value? (depth + 1) (digitByte d :: rest) =
      (number? false (digitByte d :: rest)).map fun (n, tail) => (.number n, tail) := by
  rcases cases_of_lt_ten h with
    rfl | rfl | rfl | rfl | rfl | rfl | rfl | rfl | rfl | rfl <;> rfl

/-- A document begins with a byte that is no blank and ends no array. -/
theorem render_eq_cons (json : Json) :
    ∃ byte rest, json.render = byte :: rest ∧ isBlank byte = false ∧ byte ≠ 0x5d := by
  cases json with
  | null => exact ⟨_, _, rfl, rfl, by decide⟩
  | bool b => cases b <;> exact ⟨_, _, rfl, rfl, by decide⟩
  | number n =>
    rw [render, renderNumber_eq]
    cases n.negative with
    | true => exact ⟨_, _, rfl, rfl, by decide⟩
    | false =>
      obtain ⟨d, others, hd, hcons⟩ := decimal_eq_cons n.whole
      rw [hcons]
      refine ⟨digitByte d, _, rfl, ?_⟩
      rcases cases_of_lt_ten hd with
        rfl | rfl | rfl | rfl | rfl | rfl | rfl | rfl | rfl | rfl <;> exact ⟨rfl, by decide⟩
  | text content => exact ⟨_, _, rfl, rfl, by decide⟩
  | array items => cases items <;> exact ⟨_, _, rfl, rfl, by decide⟩
  | object members =>
    cases members with
    | nil => exact ⟨_, _, rfl, rfl, by decide⟩
    | cons member members => exact ⟨0x7b, _, rfl, rfl, by decide⟩

theorem ends_renderItems (items : List Json) (rest : Bytes) :
    Ends (renderItems items ++ rest) := by
  cases items with
  | nil => exact .array rest
  | cons item items => exact .comma _

theorem ends_renderMembers (members : List (Option String × Json)) (rest : Bytes) :
    Ends (renderMembers members ++ rest) := by
  cases members with
  | nil => exact .object rest
  | cons member members => exact .comma _

theorem value?_number {n : Number} (hwritten : n.Written) (depth : Nat) {rest : Bytes}
    (h : Ends rest) :
    value? (depth + 1) (renderNumber n ++ rest) = some (.number n, rest) := by
  have hread := number?_append hwritten h
  rw [renderNumber_eq]
  cases hnegative : n.negative with
  | true =>
    rw [hnegative] at hread
    exact congrArg (Option.map fun (n, tail) => (Json.number n, tail)) hread
  | false =>
    rw [hnegative] at hread
    obtain ⟨d, others, hd, hcons⟩ := decimal_eq_cons n.whole
    rw [hcons] at hread ⊢
    refine (value?_digitByte hd depth _).trans ?_
    exact congrArg (Option.map fun (n, tail) => (Json.number n, tail)) hread

theorem value?_array {bytes : Bytes} (depth : Nat) (h : ∀ tail, skipBlanks bytes ≠ 0x5d :: tail) :
    value? (depth + 1) (0x5b :: bytes) =
      (items? depth bytes).map fun (items, tail) => (Json.array items, tail) := by
  have hopen : skipBlanks (0x5b :: bytes) = 0x5b :: bytes := rfl
  have hbyte : (0x5b : UInt8).toNat = 0x5b := rfl
  -- with `h`, the bytes behind the bracket do not close it
  simp only [value?, hopen, hbyte]

theorem members?_renderText (depth : Nat) (name : String) (bytes : Bytes) :
    members? (depth + 1) (renderText name ++ 0x3a :: bytes) =
      (value? depth bytes).bind fun (value, rest) =>
        match skipBlanks rest with
        | 0x7d :: tail => some ([(some name, value)], tail)
        | 0x2c :: tail =>
          (members? depth tail).bind fun (members, tail) =>
            some ((some name, value) :: members, tail)
        | _ => none := by
  obtain ⟨body, hbody, ps, hread, hcontent⟩ := pieces?_renderText name (0x3a :: bytes)
  rw [hbody]
  show (pieces? body).bind _ = _
  rw [hread, ← hcontent]
  rfl

mutual

/-- A document is read back in front of what can follow it, with as much depth as it has bytes. -/
theorem value?_render : ∀ (json : Json) (depth : Nat) {rest : Bytes}, json.Written →
    json.render.length ≤ depth → Ends rest → value? depth (json.render ++ rest) = some (json, rest)
  | json, 0, rest, _, hdepth, _ => by
    obtain ⟨byte, tail, hcons, -, -⟩ := render_eq_cons json
    rw [hcons] at hdepth
    exact absurd hdepth (Nat.not_succ_le_zero _)
  | .null, depth + 1, rest, _, _, _ => rfl
  | .bool true, depth + 1, rest, _, _, _ => rfl
  | .bool false, depth + 1, rest, _, _, _ => rfl
  | .number n, depth + 1, rest, hwritten, _, hends => value?_number hwritten depth hends
  | .text content, depth + 1, rest, hwritten, _, _ => by
    obtain ⟨text, rfl⟩ := Option.isSome_iff_exists.mp hwritten
    obtain ⟨body, hbody, ps, hread, hcontent⟩ := pieces?_renderText text rest
    show value? (depth + 1) (renderText text ++ rest) = _
    rw [hbody]
    show (pieces? body).map _ = _
    rw [hread]
    exact congrArg (fun content => some (Json.text content, rest)) hcontent
  | .array [], depth + 1, rest, _, _, _ => rfl
  | .array (item :: items), depth + 1, rest, hwritten, hdepth, _ => by
    obtain ⟨byte, tail, hcons, hblank, hend⟩ := render_eq_cons item
    have hitems := items?_render item items depth rest hwritten (Nat.le_of_succ_le_succ hdepth)
    refine (value?_array depth fun tail' heq => ?_).trans ?_
    · change skipBlanks (item.render ++ renderItems items ++ rest) = _ at heq
      rw [hcons, List.cons_append, List.cons_append, skipBlanks_cons _ hblank] at heq
      exact hend (List.cons.inj heq).1
    · exact congrArg (Option.map fun (items, tail) => (Json.array items, tail)) hitems
  | .object [], depth + 1, rest, _, _, _ => rfl
  | .object ((name, value) :: members), depth + 1, rest, hwritten, hdepth, _ => by
    have hmembers := members?_render name value members depth rest hwritten
      (Nat.le_of_succ_le_succ hdepth)
    exact congrArg (Option.map fun (members, tail) => (Json.object members, tail)) hmembers

theorem items?_render : ∀ (item : Json) (items : List Json) (depth : Nat) (rest : Bytes),
    WrittenItems (item :: items) → (item.render ++ renderItems items).length ≤ depth →
      items? depth (item.render ++ renderItems items ++ rest) = some (item :: items, rest)
  | item, items, 0, rest, _, hdepth => by
    obtain ⟨byte, tail, hcons, -, -⟩ := render_eq_cons item
    rw [hcons] at hdepth
    exact absurd hdepth (Nat.not_succ_le_zero _)
  | item, [], depth + 1, rest, hwritten, hdepth => by
    simp only [renderItems, List.length_append, List.length_cons, List.length_nil] at hdepth
    have hvalue := value?_render item depth hwritten.1 (by omega) (ends_renderItems [] rest)
    rw [items?, List.append_assoc, hvalue]
    rfl
  | item, next :: items, depth + 1, rest, hwritten, hdepth => by
    simp only [renderItems, List.length_append, List.length_cons] at hdepth
    have hvalue := value?_render item depth hwritten.1 (by omega)
      (ends_renderItems (next :: items) rest)
    have hitems := items?_render next items depth rest hwritten.2 (by
      rw [List.length_append]
      omega)
    rw [items?, List.append_assoc, hvalue]
    show (items? depth (next.render ++ renderItems items ++ rest)).bind _ = _
    rw [hitems]
    rfl

theorem members?_render : ∀ (name : Option String) (value : Json)
    (members : List (Option String × Json)) (depth : Nat) (rest : Bytes),
    WrittenMembers ((name, value) :: members) →
    (renderText (name.getD "") ++ 0x3a :: value.render ++ renderMembers members).length ≤ depth →
      members? depth (renderText (name.getD "") ++ 0x3a :: value.render ++ renderMembers members ++
        rest) = some ((name, value) :: members, rest)
  | name, value, members, 0, rest, _, hdepth => absurd hdepth (Nat.not_succ_le_zero _)
  | name, value, [], depth + 1, rest, hwritten, hdepth => by
    obtain ⟨text, rfl⟩ := Option.isSome_iff_exists.mp hwritten.1
    simp only [renderMembers, List.length_append, List.length_cons, List.length_nil] at hdepth
    have hvalue := value?_render value depth hwritten.2.1 (by omega) (ends_renderMembers [] rest)
    have hread := members?_renderText depth text (value.render ++ (renderMembers [] ++ rest))
    rw [hvalue] at hread
    simp only [List.append_assoc, List.cons_append]
    exact hread
  | name, value, (next, value') :: members, depth + 1, rest, hwritten, hdepth => by
    obtain ⟨text, rfl⟩ := Option.isSome_iff_exists.mp hwritten.1
    simp only [renderMembers, List.length_append, List.length_cons] at hdepth
    have hvalue := value?_render value depth hwritten.2.1 (by omega)
      (ends_renderMembers ((next, value') :: members) rest)
    have hmembers := members?_render next value' members depth rest hwritten.2.2 (by
      simp only [List.length_append, List.length_cons]
      omega)
    have hread := members?_renderText depth text
      (value.render ++ (renderMembers ((next, value') :: members) ++ rest))
    rw [hvalue] at hread
    change _ = (members? depth (renderText (next.getD "") ++ 0x3a :: value'.render ++
      renderMembers members ++ rest)).bind _ at hread
    rw [hmembers] at hread
    simp only [List.append_assoc, List.cons_append]
    exact hread

end

/-- **A document is read back of its compact form.** -/
theorem parse?_render {json : Json} (h : json.Written) : parse? json.render = some json := by
  have hread := value?_render json (2 * json.render.length + 2) h (by omega) .nothing
  rw [List.append_nil] at hread
  show (value? _ _).bind _ = _
  rw [hread]
  rfl

end Json

end Chronicle
