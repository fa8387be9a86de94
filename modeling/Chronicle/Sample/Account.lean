import Chronicle.AggregateType

/-!
# Bank accounts

An account is opened once, takes deposits and withdrawals while it is active, and may be closed.
A deposit must be positive. A withdrawal of nothing, or of more than there is, is accepted and
changes nothing, as does opening or closing an account for the second time.
-/

namespace Chronicle.Sample

/-- What is known of an account. -/
structure AccountState where
  owner : Option String
  balance : UInt64
  closed : Bool
  deriving DecidableEq, Repr

/-- What happens to an account. -/
inductive AccountEvent where
  | opened (owner : String)
  | deposited (amount : UInt64)
  | withdrawn (amount : UInt64)
  | closed
  deriving DecidableEq, Repr

/-- What an account is told to do. -/
inductive AccountCommand where
  | openFor (owner : String)
  | deposit (amount : UInt64)
  | withdraw (amount : UInt64)
  | close
  deriving DecidableEq, Repr

instance : EventKind AccountEvent where
  kind
    | .opened _ => "AccountOpened.v1"
    | .deposited _ => "FundsDeposited.v1"
    | .withdrawn _ => "FundsWithdrawn.v1"
    | .closed => "AccountClosed.v1"

instance : Wire AccountId :=
  ⟨"eventloom_testing::fixtures::AccountId", Format.uuid.rename AccountId.uuid AccountId.mk⟩

instance : Wire AccountState :=
  ⟨"eventloom_testing::fixtures::AccountState",
    Format.record
      (Fields.required "owner" Format.string.option <|
        Fields.required "balance" Format.uint64 <|
        Fields.required "closed" Format.bool <| Fields.none)
      (fun s => (s.owner, s.balance, s.closed, ()))
      (fun (owner, balance, closed, _) => ⟨owner, balance, closed⟩)⟩

/-- The format of a record with the one field `owner`. -/
def ownerRecord : Format String :=
  Format.record (Fields.required "owner" Format.string <| Fields.none)
    (fun owner => (owner, ())) Prod.fst

/-- The format of a record with the one field `amount`. -/
def amountRecord : Format UInt64 :=
  Format.record (Fields.required "amount" Format.uint64 <| Fields.none)
    (fun amount => (amount, ())) Prod.fst

instance : Wire AccountEvent :=
  ⟨"eventloom_testing::fixtures::AccountEvent",
    Format.union
      (Variants.holding "Opened" ownerRecord <| Variants.holding "Deposited" amountRecord <|
        Variants.holding "Withdrawn" amountRecord <| Variants.plain "Closed" <| Variants.none)
      (fun
        | .opened owner => .inl owner
        | .deposited amount => .inr (.inl amount)
        | .withdrawn amount => .inr (.inr (.inl amount))
        | .closed => .inr (.inr (.inr (.inl ()))))
      (fun
        | .inl owner => .opened owner
        | .inr (.inl amount) => .deposited amount
        | .inr (.inr (.inl amount)) => .withdrawn amount
        | .inr (.inr (.inr (.inl _))) => .closed)⟩

namespace AccountState

/-- An account that was not opened. -/
def unopened : AccountState := ⟨none, 0, false⟩

/-- Whether an account is open and not closed. -/
def isActive (state : AccountState) : Bool := state.owner.isSome && !state.closed

/-- Gives the account its owner. -/
def onOpened : Transition AccountState AccountEvent
  | .opened owner, state => .ok { state with owner := some owner }
  | _, state => .ok state

/-- Adds an amount to the balance. -/
def onDeposited : Transition AccountState AccountEvent
  | .deposited amount, state => do
    let balance ← checkedAdd state.balance amount
    return { state with balance := balance }
  | _, state => .ok state

/-- Takes an amount from the balance. -/
def onWithdrawn : Transition AccountState AccountEvent
  | .withdrawn amount, state => do
    let balance ← checkedSub state.balance amount
    return { state with balance := balance }
  | _, state => .ok state

/-- Closes the account. -/
def onClosed : Transition AccountState AccountEvent
  | _, state => .ok { state with closed := true }

/-- The transitions of an account. -/
def mutator : Mutator AccountState AccountEvent :=
  ((((Mutator.new unopened).register "AccountOpened.v1" onOpened).register
    "FundsDeposited.v1" onDeposited).register "FundsWithdrawn.v1" onWithdrawn).register
    "AccountClosed.v1" onClosed

end AccountState

/-- Follows the rules of accounts. -/
def AccountCommand.handle (command : CommandEnvelope AccountId AccountCommand)
    (state : AccountState) : Decision AccountState AccountEvent :=
  match command.payload with
  | .openFor owner => if state.owner.isNone then .emitOnly (.opened owner) else .accept
  | .deposit amount =>
    if amount = 0 then .reject "deposit must be positive"
    else if state.isActive then .emitOnly (.deposited amount)
    else .reject "account is not active"
  | .withdraw amount =>
    if state.isActive then
      if 0 < amount ∧ amount ≤ state.balance then .emitOnly (.withdrawn amount) else .accept
    else .reject "account is not active"
  | .close => if state.isActive then .emitOnly .closed else .accept

/-- The type of bank accounts. -/
@[reducible]
def accountType : AggregateType where
  name := "account"
  tag := ⟨2⟩
  Id := AccountId
  State := AccountState
  Event := AccountEvent
  Command := AccountCommand
  mutator := AccountState.mutator
  handle := AccountCommand.handle

end Chronicle.Sample
