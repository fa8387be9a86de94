import Chronicle.Projection
import Chronicle.Sample.Account
import Chronicle.Table

/-!
# The view of balances

The view has a row for each open account, under the text of its id and whatever its tenant. It is
kept by the events of accounts; all other events are passed over.
-/

namespace Chronicle.Sample

/-- The owner and the balance of an open account. -/
structure BalanceRow where
  owner : String
  balance : UInt64
  deriving DecidableEq, Repr

/-- The balances of the open accounts. -/
structure Balances where
  rows : Table String BalanceRow

namespace Balances

/-- The view without rows. -/
def empty : Balances := ⟨.empty⟩

/-- The row of an account. -/
def get? (view : Balances) (account : AccountId) : Option BalanceRow :=
  view.rows.get? (InstanceId.toText account)

/-- The number of rows. -/
def size (view : Balances) : Nat := view.rows.size

/-- Adds up balances. -/
def sum : UInt64 → List BalanceRow → Checked UInt64
  | acc, [] => .ok acc
  | acc, row :: rows => do
    let acc ← checkedAdd acc row.balance
    sum acc rows

/-- The sum of all balances. -/
def total (view : Balances) : Checked UInt64 := sum 0 view.rows.values

/-- Follows an event of an account. Deposits and withdrawals need a row; a withdrawal of more
than the balance leaves nothing. -/
def apply (view : Balances) (account : AccountId) : AccountEvent → Checked Balances
  | .opened owner => .ok ⟨view.rows.set (InstanceId.toText account) ⟨owner, 0⟩⟩
  | .deposited amount =>
    match view.get? account with
    | none => .ok view
    | some row => do
      let balance ← checkedAdd row.balance amount
      return ⟨view.rows.set (InstanceId.toText account) { row with balance := balance }⟩
  | .withdrawn amount =>
    match view.get? account with
    | none => .ok view
    | some row =>
      let balance := if amount ≤ row.balance then row.balance - amount else 0
      .ok ⟨view.rows.set (InstanceId.toText account) { row with balance := balance }⟩
  | .closed => .ok ⟨view.rows.erase (InstanceId.toText account)⟩

instance {κ : Type} [Carries κ AccountId AccountEvent] : Projection κ Balances where
  name _ := "balances"
  handle view envelope :=
    match envelope.typed? AccountId AccountEvent with
    | none => .ok (.ok view)
    | some typed => (view.apply typed.aggregateId typed.payload).map .ok
  reset _ := .ok empty

end Balances

end Chronicle.Sample
