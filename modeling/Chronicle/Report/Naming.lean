import Chronicle.Codec.Json
import Chronicle.Identity

/-!
# Names for generated identities

Generated identities differ from run to run. So that reports can be compared, each one is named
by its first appearance: `r1`, `r2` and so on, in the order in which a report is read. Reports
start their supply of identities above all numbers that requests give, which tells the generated
ones from the others.
-/

namespace Chronicle.Report

/-- The first number of a generated identity. -/
def firstGenerated : Nat := 0x80000000000000000000000000000000

/-- The supply of identities behind a report. -/
def supply : IdSupply := ⟨firstGenerated⟩

/-- How failures of waits begin that tell a sequence. -/
def sequenceMark : List Char := "Sequence ".toList

/-- The name of a number, and the numbers named so far. -/
def nameOf (n : Nat) (seen : List Nat) : String × List Nat :=
  match seen.findIdx? (· == n) with
  | some i => ("r" ++ toString (i + 1), seen)
  | none => ("r" ++ toString (seen.length + 1), seen ++ [n])

/-- Names the sequence that a text tells, if it tells one. -/
def nameInText (text : String) (seen : List Nat) : String × List Nat :=
  let (mark, rest) := text.toList.splitAt sequenceMark.length
  if mark = sequenceMark then
    let digits := rest.takeWhile Char.isDigit
    match (String.ofList digits).toNat? with
    | some n =>
      if firstGenerated ≤ n then
        let (name, seen) := nameOf n seen
        (String.ofList mark ++ name ++ String.ofList (rest.drop digits.length), seen)
      else (text, seen)
    | none => (text, seen)
  else (text, seen)

mutual

/-- Names the generated identities of a document. -/
def name : Json → List Nat → Json × List Nat
  | .number n, seen =>
    if firstGenerated ≤ n.whole then
      let (text, seen) := nameOf n.whole seen
      (.str text, seen)
    else (.number n, seen)
  | .text (some text), seen =>
    let (text, seen) := nameInText text seen
    (.str text, seen)
  | .array items, seen =>
    let (items, seen) := nameItems items seen
    (.array items, seen)
  | .object members, seen =>
    let (members, seen) := nameMembers members seen
    (.object members, seen)
  | json, seen => (json, seen)

/-- Names the generated identities of documents in a row. -/
def nameItems : List Json → List Nat → List Json × List Nat
  | [], seen => ([], seen)
  | item :: items, seen =>
    let (item, seen) := name item seen
    let (items, seen) := nameItems items seen
    (item :: items, seen)

/-- Names the generated identities of the members of an object. -/
def nameMembers :
    List (Option String × Json) → List Nat → List (Option String × Json) × List Nat
  | [], seen => ([], seen)
  | (key, json) :: members, seen =>
    let (json, seen) := name json seen
    let (members, seen) := nameMembers members seen
    ((key, json) :: members, seen)

end

/-- A report with its generated identities named. -/
def named (json : Json) : Json := (name json []).1

end Chronicle.Report
