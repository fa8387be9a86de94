import Chronicle.Identity

/-!
# Hexadecimal texts of identifiers

An identifier is read back of its text (`Uuid.ofText?_toText`). The text is five groups of digits
with hyphens between them; reading checks the hyphens, takes them out, and reads the bytes off the
digits in pairs.
-/

namespace Chronicle

namespace Uuid

theorem hexValue?_hexDigit {n : Nat} (h : n < 16) : hexValue? (hexDigit n) = some n := by
  have hall : ∀ n < 16, hexValue? (hexDigit n) = some n := by decide
  exact hall n h

theorem hexBytes?_hexText (bytes : Bytes) : hexBytes? (hexText bytes) = some bytes := by
  induction bytes with
  | nil => rfl
  | cons byte bytes ih =>
    have hbyte := byte.toNat_lt
    have hhigh := hexValue?_hexDigit (n := byte.toNat / 16) (by omega)
    have hlow := hexValue?_hexDigit (n := byte.toNat % 16) (by omega)
    have hsum : 16 * (byte.toNat / 16) + byte.toNat % 16 = byte.toNat := by omega
    rw [hexText] at ih
    simp only [hexText, List.flatMap_cons, hexPair, List.cons_append, List.nil_append, hexBytes?,
      hhigh, hlow, ih, Option.bind_eq_bind, Option.bind_some, hsum, UInt8.ofNat_toNat,
      Option.pure_def]

theorem length_hexText (bytes : Bytes) : (hexText bytes).length = 2 * bytes.length := by
  induction bytes with
  | nil => rfl
  | cons byte bytes ih =>
    rw [hexText] at ih
    simp only [hexText, List.flatMap_cons, hexPair, List.length_append, ih, List.length_cons,
      List.length_nil]
    omega

theorem ofHyphenated?_groups {a b c d e : List Char} (ha : a.length = 8) (hb : b.length = 4)
    (hc : c.length = 4) (hd : d.length = 4) (he : e.length = 12) :
    ofHyphenated? (a ++ '-' :: b ++ '-' :: c ++ '-' :: d ++ '-' :: e) =
      ofPlain? (a ++ b ++ c ++ d ++ e) := by
  unfold ofHyphenated?
  rw [if_pos (by simp [ha, hb, hc, hd, he])]
  -- each group is what is left between two hyphens
  simp (disch := simp [ha, hb, hc, hd]) [List.drop_append, List.drop_eq_nil_of_le, ha, hb, hc, hd]

/-- An identifier is read back of its text. -/
theorem ofText?_toText (u : Uuid) : ofText? u.toText = some u := by
  obtain ⟨bytes, hsize⟩ := u
  have hgroups : hexText (bytes.take 4) ++ hexText ((bytes.drop 4).take 2) ++
      hexText ((bytes.drop 6).take 2) ++ hexText ((bytes.drop 8).take 2) ++
      hexText (bytes.drop 10) = hexText bytes := by
    have hsplit : ∀ n, (bytes.drop n).take 2 ++ bytes.drop (n + 2) = bytes.drop n := fun n => by
      rw [← List.drop_drop, List.take_append_drop]
    simp only [hexText, ← List.flatMap_append, List.append_assoc]
    rw [hsplit 8, hsplit 6, hsplit 4, List.take_append_drop]
  have hread := ofHyphenated?_groups (a := hexText (bytes.take 4))
    (b := hexText ((bytes.drop 4).take 2)) (c := hexText ((bytes.drop 6).take 2))
    (d := hexText ((bytes.drop 8).take 2)) (e := hexText (bytes.drop 10))
    (by simp [length_hexText, hsize]) (by simp [length_hexText, hsize])
    (by simp [length_hexText, hsize]) (by simp [length_hexText, hsize])
    (by simp [length_hexText, hsize])
  have hplain : ofPlain? (hexText bytes) = some ⟨bytes, hsize⟩ := by
    rw [ofPlain?, hexBytes?_hexText]
    exact dif_pos hsize
  rw [hgroups, hplain] at hread
  have hlength : (Uuid.toText ⟨bytes, hsize⟩).toList.length = 36 := by
    simp [toText, length_hexText, hsize]
  simp only [ofText?, hlength]
  simpa [toText] using hread

end Uuid

theorem InstanceId.ofText_toText_account (account : AccountId) :
    InstanceId.ofText (InstanceId.toText account) = .ok account := by
  simp only [InstanceId.ofText, InstanceId.toText, Uuid.ofText?_toText]

end Chronicle
