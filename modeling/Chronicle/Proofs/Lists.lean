import Chronicle.Proofs.Store.Numbers
import Mathlib.Data.List.Forall2

/-!
# Lists that are read one by one, and in batches

A list is read by reading its items in their order, up to the first that cannot be read. Reading
it whole or in parts comes to the same (`mapM_append_eq_ok`), so a list that can be read can be
read in batches (`forall₂_batchesOf`).

`batchesOf` cuts a list into batches of one size, the last of which may be smaller.
-/

namespace Chronicle

/-! ## Reading -/

theorem forall₂_of_mapM {ε α β : Type} {f : α → Except ε β} {xs : List α} :
    ∀ {ys : List β}, xs.mapM f = .ok ys → List.Forall₂ (fun x y => f x = .ok y) xs ys := by
  induction xs with
  | nil =>
    intro ys h
    obtain rfl := Except.ok.inj h
    exact .nil
  | cons x xs ih =>
    intro ys h
    rw [List.mapM_cons] at h
    obtain ⟨y, hy, h⟩ := bind_eq_ok.mp h
    obtain ⟨rest, hrest, h⟩ := bind_eq_ok.mp h
    obtain rfl := Except.ok.inj h
    exact .cons hy (ih hrest)

theorem mapM_of_forall₂ {ε α β : Type} {f : α → Except ε β} {xs : List α} {ys : List β}
    (h : List.Forall₂ (fun x y => f x = .ok y) xs ys) : xs.mapM f = .ok ys := by
  induction h with
  | nil => rfl
  | cons hxy _ ih =>
    rw [List.mapM_cons, hxy, ih]
    rfl

/-- The same of answers that may be missing. -/
theorem mapM_eq_some_iff {α β : Type} {f : α → Option β} {xs : List α} :
    ∀ {ys : List β}, xs.mapM f = some ys ↔ List.Forall₂ (fun x y => f x = some y) xs ys := by
  induction xs with
  | nil =>
    intro ys
    rw [List.forall₂_nil_left_iff, List.mapM_nil]
    exact ⟨fun h => (Option.some.inj h).symm, fun h => h ▸ rfl⟩
  | cons x xs ih =>
    intro ys
    rw [List.mapM_cons, List.forall₂_cons_left_iff]
    constructor
    · intro h
      obtain ⟨y, hy, h⟩ := Option.bind_eq_some_iff.mp h
      obtain ⟨rest, hrest, h⟩ := Option.bind_eq_some_iff.mp h
      exact ⟨y, rest, hy, ih.mp hrest, (Option.some.inj h).symm⟩
    · rintro ⟨y, rest, hy, hrest, rfl⟩
      rw [hy, ih.mpr hrest]
      rfl

/-- Where each answer keeps some feature of what was read, so does the whole. -/
theorem map_eq_of_forall₂ {α β γ : Type} {R : α → β → Prop} {f : α → γ} {g : β → γ} {xs : List α}
    {ys : List β} (h : List.Forall₂ R xs ys) (hR : ∀ {x y}, R x y → g y = f x) :
    ys.map g = xs.map f := by
  induction h with
  | nil => rfl
  | cons hxy _ ih => rw [List.map_cons, List.map_cons, hR hxy, ih]

theorem mapM_append_eq_ok {ε α β : Type} {f : α → Except ε β} {xs xs' : List α} {ys ys' : List β}
    (h : xs.mapM f = .ok ys) (h' : xs'.mapM f = .ok ys') : (xs ++ xs').mapM f = .ok (ys ++ ys') :=
  mapM_of_forall₂ (List.rel_append (forall₂_of_mapM h) (forall₂_of_mapM h'))

/-- Reading stops at the first item that cannot be read. -/
theorem mapM_of_error {ε α β : Type} {f : α → Except ε β} {good rest : List α} {bad : α}
    {ys : List β} {error : ε} (hgood : good.mapM f = .ok ys) (hbad : f bad = .error error) :
    (good ++ bad :: rest).mapM f = .error error := by
  induction good generalizing ys with
  | nil =>
    rw [List.nil_append, List.mapM_cons, hbad]
    rfl
  | cons x good ih =>
    rw [List.mapM_cons] at hgood
    obtain ⟨y, hy, hgood⟩ := bind_eq_ok.mp hgood
    obtain ⟨ys, hys, -⟩ := bind_eq_ok.mp hgood
    rw [List.cons_append, List.mapM_cons, hy]
    show (List.mapM f (good ++ bad :: rest) >>= _) = _
    rw [ih hys]
    rfl

/-- Items of which one cannot be read, cannot be read; if all before it can, its error is that of
the whole. -/
theorem exists_mapM_error {ε α β : Type} {f : α → Except ε β} (before rest : List α) {bad : α}
    {error : ε} (hbad : f bad = .error error) :
    ∃ found, (before ++ bad :: rest).mapM f = .error found ∧
      ((∃ ys, before.mapM f = .ok ys) → found = error) := by
  cases hbefore : before.mapM f with
  | ok ys => exact ⟨error, mapM_of_error hbefore hbad, fun _ => rfl⟩
  | error found =>
    refine ⟨found, ?_, fun ⟨_, hok⟩ => nomatch hok⟩
    rw [List.mapM_append, hbefore]
    rfl

/-- Whether an error is renamed where it arises or at the end comes to the same. -/
theorem mapM_mapError {ε ε' α β : Type} (f : α → Except ε β) (rename : ε → ε') (xs : List α) :
    xs.mapM (fun x => (f x).mapError rename) = (xs.mapM f).mapError rename := by
  induction xs with
  | nil => rfl
  | cons x xs ih =>
    rw [List.mapM_cons, List.mapM_cons, ih]
    cases f x with
    | error error => rfl
    | ok y => cases xs.mapM f <;> rfl

/-- So does reading the beginning of a list, if the item lies there. -/
theorem mapM_take_of_error {ε α β : Type} {f : α → Except ε β} {good rest : List α} {bad : α}
    {ys : List β} {error : ε} {size : Nat} (hgood : good.mapM f = .ok ys)
    (hbad : f bad = .error error) (hsize : good.length < size) :
    ((good ++ bad :: rest).take size).mapM f = .error error := by
  obtain ⟨more, rfl⟩ := Nat.exists_eq_add_of_lt hsize
  rw [List.take_append, List.take_of_length_le (by omega), Nat.add_assoc, Nat.add_sub_cancel_left,
    List.take_succ_cons]
  exact mapM_of_error hgood hbad

/-- Where some item of a list has a property, there is a first that has it. -/
theorem exists_first {α : Type} {p : α → Prop} [DecidablePred p] {xs : List α}
    (h : ∃ x ∈ xs, p x) : ∃ i x, xs[i]? = some x ∧ p x ∧ ∀ y ∈ xs.take i, ¬ p y := by
  induction xs with
  | nil =>
    obtain ⟨_, hin, -⟩ := h
    cases hin
  | cons x xs ih =>
    by_cases hx : p x
    · exact ⟨0, x, rfl, hx, nofun⟩
    · obtain ⟨y, hy, hp⟩ := h
      have hrest := (List.mem_cons.mp hy).resolve_left fun heq => hx (heq ▸ hp)
      obtain ⟨i, first, hi, hfirst, hnone⟩ := ih ⟨y, hrest, hp⟩
      refine ⟨i + 1, first, hi, hfirst, fun z hz => ?_⟩
      rcases List.mem_cons.mp hz with rfl | hz
      · exact hx
      · exact hnone z hz

/-- Of items that are numbered without a gap, those above a number are the last ones. -/
theorem filter_lt_eq_drop {α : Type} {f : α → Nat} (bound : Nat) {xs : List α} :
    ∀ {first : Nat}, xs.map f = List.range' first xs.length →
      xs.filter (fun x => bound < f x) = xs.drop (bound + 1 - first) := by
  induction xs with
  | nil => intro first _; simp
  | cons x xs ih =>
    intro first h
    rw [List.map_cons, List.length_cons, List.range'_succ, List.cons.injEq] at h
    obtain ⟨hx, h⟩ := h
    rw [List.filter_cons, ih h]
    by_cases hlt : bound < f x
    · have h₁ : bound + 1 - first = 0 := by omega
      have h₂ : bound + 1 - (first + 1) = 0 := by omega
      rw [if_pos (by simpa using hlt), h₁, h₂, List.drop_zero, List.drop_zero]
    · have h₁ : bound + 1 - first = bound + 1 - (first + 1) + 1 := by omega
      rw [if_neg (by simpa using hlt), h₁, List.drop_succ_cons]

/-- Of items that are numbered without a gap, those up to a number are the first ones. -/
theorem filter_le_eq_take {α : Type} {f : α → Nat} (bound : Nat) {xs : List α} :
    ∀ {first : Nat}, xs.map f = List.range' first xs.length →
      xs.filter (fun x => f x ≤ bound) = xs.take (bound + 1 - first) := by
  induction xs with
  | nil => intro first _; simp
  | cons x xs ih =>
    intro first h
    rw [List.map_cons, List.length_cons, List.range'_succ, List.cons.injEq] at h
    obtain ⟨hx, h⟩ := h
    rw [List.filter_cons, ih h]
    by_cases hle : f x ≤ bound
    · have h₁ : bound + 1 - first = bound + 1 - (first + 1) + 1 := by omega
      rw [if_pos (by simpa using hle), h₁, List.take_succ_cons]
    · have h₁ : bound + 1 - first = 0 := by omega
      have h₂ : bound + 1 - (first + 1) = 0 := by omega
      rw [if_neg (by simpa using hle), h₁, h₂, List.take_zero, List.take_zero]

/-- Two pieces of a list that meet are the piece from the start of one to the end of the other. -/
theorem drop_take_append_drop_take {α : Type} {first middle last : Nat} (hfirst : first ≤ middle)
    (hlast : middle ≤ last) (xs : List α) :
    (xs.take middle).drop first ++ (xs.take last).drop middle = (xs.take last).drop first := by
  have hfront : (xs.take last).take middle = xs.take middle := by
    rw [List.take_take, Nat.min_eq_left hlast]
  have hsplit : (xs.take last).drop first =
      (xs.take middle).drop first ++
        ((xs.take last).drop middle).drop (first - (xs.take middle).length) := by
    conv_lhs => rw [← List.take_append_drop middle (xs.take last), hfront, List.drop_append]
  by_cases hlong : first ≤ xs.length
  · have hstart : first - (xs.take middle).length = 0 := by rw [List.length_take]; omega
    rw [hsplit, hstart, List.drop_zero]
  · have hnone : (xs.take last).drop middle = [] := by
      rw [List.drop_eq_nil_iff, List.length_take]
      omega
    rw [hsplit, hnone, List.drop_nil]

/-! ## Batches -/

/-- A list in batches of a given size, the last of which may be smaller. -/
def batchesOf {α : Type} (size : Nat) (xs : List α) : List (List α) :=
  (List.range ((xs.length + size - 1) / size)).map fun i => (xs.drop (i * size)).take size

section Batches

variable {α β : Type} {size : Nat}

@[simp] theorem length_batchesOf (size : Nat) (xs : List α) :
    (batchesOf size xs).length = (xs.length + size - 1) / size := by simp [batchesOf]

@[simp] theorem batchesOf_nil (hsize : 0 < size) : batchesOf size ([] : List α) = [] := by
  have hzero : (0 + size - 1) / size = 0 := Nat.div_eq_of_lt (by omega)
  rw [batchesOf, List.length_nil, hzero]
  rfl

theorem batchesOf_of_ne_nil (hsize : 0 < size) {xs : List α} (hne : xs ≠ []) :
    batchesOf size xs = xs.take size :: batchesOf size (xs.drop size) := by
  have hpos := List.length_pos_iff.mpr hne
  have hcount : (xs.length + size - 1) / size = (xs.length - size + size - 1) / size + 1 := by
    rw [← Nat.add_div_right _ hsize]
    by_cases hle : size ≤ xs.length
    · congr 1
      omega
    · have h₁ : xs.length - size + size - 1 + size = size - 1 + size := by omega
      have h₂ : (size - 1 + size) / size = 1 := by
        rw [Nat.add_div_right _ hsize, Nat.div_eq_of_lt (by omega)]
      have h₃ : (xs.length + size - 1) / size = 1 := by
        have : xs.length + size - 1 = xs.length - 1 + size := by omega
        rw [this, Nat.add_div_right _ hsize, Nat.div_eq_of_lt (by omega)]
      rw [h₁, h₂, h₃]
  unfold batchesOf
  rw [hcount, List.range_succ_eq_map, List.map_cons, List.map_map, List.length_drop]
  congr 1
  · rw [Nat.zero_mul, List.drop_zero]
  · refine List.map_congr_left fun i _ => ?_
    show List.take size (xs.drop ((i + 1) * size)) = List.take size ((xs.drop size).drop (i * size))
    rw [List.drop_drop, Nat.succ_mul, Nat.add_comm]

/-- A list that fills a batch fills one more than what is left behind the first. -/
theorem div_length_of_le (hsize : 0 < size) {xs : List α} (hle : size ≤ xs.length) :
    xs.length / size = (xs.drop size).length / size + 1 := by
  rw [List.length_drop, ← Nat.add_div_right _ hsize]
  congr 1
  omega

/-- What holds of no items, and of some if it holds of those behind the first batch, holds. -/
theorem batches_induction (hsize : 0 < size) {P : List α → Prop} (nil : P [])
    (step : ∀ xs, xs ≠ [] → P (xs.drop size) → P xs) (xs : List α) : P xs := by
  induction hlen : xs.length using Nat.strongRecOn generalizing xs with
  | ind n ih =>
    by_cases hne : xs = []
    · rw [hne]; exact nil
    · have hpos := List.length_pos_iff.mpr hne
      exact step xs hne (ih (xs.drop size).length (by rw [List.length_drop]; omega) _ rfl)

@[simp] theorem flatten_batchesOf (hsize : 0 < size) (xs : List α) :
    (batchesOf size xs).flatten = xs := by
  induction xs using batches_induction hsize with
  | nil => rw [batchesOf_nil hsize]; rfl
  | step xs hne ih =>
    rw [batchesOf_of_ne_nil hsize hne, List.flatten_cons, ih, List.take_append_drop]

theorem flatten_take_batchesOf (hsize : 0 < size) (count : Nat) (xs : List α) :
    ((batchesOf size xs).take count).flatten = xs.take (size * count) := by
  induction xs using batches_induction hsize generalizing count with
  | nil => rw [batchesOf_nil hsize, List.take_nil, List.take_nil, List.flatten_nil]
  | step xs hne ih =>
    cases count with
    | zero => rw [Nat.mul_zero, List.take_zero, List.take_zero, List.flatten_nil]
    | succ count =>
      rw [batchesOf_of_ne_nil hsize hne, List.take_succ_cons, List.flatten_cons, ih, Nat.mul_succ,
        Nat.add_comm, List.take_add]

/-- All batches but the last are full. -/
theorem length_of_mem_dropLast_batchesOf (hsize : 0 < size) (xs : List α) :
    ∀ batch ∈ (batchesOf size xs).dropLast, batch.length = size := by
  induction xs using batches_induction hsize with
  | nil =>
    intro batch hbatch
    rw [batchesOf_nil hsize] at hbatch
    cases hbatch
  | step xs hne ih =>
    intro batch hbatch
    rw [batchesOf_of_ne_nil hsize hne] at hbatch
    by_cases hrest : xs.drop size = []
    · rw [hrest, batchesOf_nil hsize] at hbatch
      cases hbatch
    · have hcons : batchesOf size (xs.drop size) ≠ [] := by
        rw [batchesOf_of_ne_nil hsize hrest]
        exact List.cons_ne_nil _ _
      rw [List.dropLast_cons_of_ne_nil hcons] at hbatch
      rcases List.mem_cons.mp hbatch with rfl | hbatch
      · have := mt List.drop_eq_nil_iff.mpr hrest
        rw [List.length_take]
        omega
      · exact ih batch hbatch

/-- As many batches are full as there are whole ones. -/
theorem map_length_take_batchesOf (hsize : 0 < size) (xs : List α) :
    ((batchesOf size xs).take (xs.length / size)).map List.length =
      List.replicate (xs.length / size) size := by
  induction xs using batches_induction hsize with
  | nil => rw [List.length_nil, Nat.zero_div, List.take_zero, List.replicate_zero, List.map_nil]
  | step xs hne ih =>
    by_cases hlt : xs.length < size
    · rw [Nat.div_eq_of_lt hlt, List.take_zero, List.replicate_zero, List.map_nil]
    · rw [div_length_of_le hsize (by omega), batchesOf_of_ne_nil hsize hne, List.take_succ_cons,
        List.map_cons, ih, List.replicate_succ, List.length_take, Nat.min_eq_left (by omega)]

theorem forall₂_batchesOf {ε : Type} {f : α → Except ε β} (hsize : 0 < size) {xs : List α} :
    ∀ {ys : List β}, xs.mapM f = .ok ys →
      List.Forall₂ (fun page batch => page.mapM f = .ok batch) (batchesOf size xs)
        (batchesOf size ys) := by
  induction xs using batches_induction hsize with
  | nil =>
    intro ys h
    rw [← Except.ok.inj h, batchesOf_nil hsize]
    exact (batchesOf_nil (α := β) hsize).symm ▸ .nil
  | step xs hne ih =>
    intro ys h
    have hxys := forall₂_of_mapM h
    have hne' : ys ≠ [] := fun hnil => hne (by
      rw [← List.length_eq_zero_iff, hxys.length_eq, hnil, List.length_nil])
    rw [batchesOf_of_ne_nil hsize hne, batchesOf_of_ne_nil hsize hne']
    exact .cons (mapM_of_forall₂ (List.forall₂_take size hxys))
      (ih (mapM_of_forall₂ (List.forall₂_drop size hxys)))

theorem take_batchesOf_append (hsize : 0 < size) (xs ys : List α) :
    (batchesOf size (xs ++ ys)).take (xs.length / size) =
      (batchesOf size xs).take (xs.length / size) := by
  induction xs using batches_induction hsize with
  | nil => rw [List.length_nil, Nat.zero_div, List.take_zero, List.take_zero]
  | step xs hne ih =>
    by_cases hlt : xs.length < size
    · rw [Nat.div_eq_of_lt hlt, List.take_zero, List.take_zero]
    · have hcount := div_length_of_le hsize (Nat.le_of_not_lt hlt)
      have hne' : xs ++ ys ≠ [] := fun hnil => hne (List.append_eq_nil_iff.mp hnil).1
      rw [batchesOf_of_ne_nil hsize hne, batchesOf_of_ne_nil hsize hne', hcount,
        List.take_succ_cons, List.take_succ_cons, List.drop_append_of_le_length (by omega), ih,
        List.take_append_of_le_length (by omega)]

end Batches

end Chronicle
