import FundingVaults.Lib.Json
import FundingVaults.Lib.Trace
import Mathlib.Algebra.Order.Ring.Int
import Mathlib.Logic.Function.Basic

/-!
# Submitting a signed transaction

Transcription of `submitSigned` of the local client, one step from an `await` to the next.  Calls on
one connection share the set of signatures that have been attempted, and run interleaved: between two
steps of a call any other call may take steps.

The connection answers anything at all, or fails.  Numbers in answers are as parsed.
-/

namespace FundingVaults.Client

/-! ## Envelopes and outcomes -/

structure Envelope where
  bytes : String
  messageHash : String
  signature : String
  blockhash : String
  lastValidBlockHeight : ℤ

/-- How a call ends: with a status, or with an exception. -/
inductive Outcome where
  | FINALIZED (slot : ℤ)
  | ONCHAIN_FAILED (slot : ℤ) (error : Json)
  | REBUILD_AND_RESIGN (reason : String)
  | SIMULATION_REJECTED (error : Json) (logs : Option Json)
  | UNKNOWN
  | thrown (code : String)

/-- The outcome tells the caller that the transaction has not been sent. -/
def Outcome.Resign : Outcome → Prop
  | .REBUILD_AND_RESIGN _ => True
  | .SIMULATION_REJECTED _ _ => True
  | _ => False

/-- What a call waits for. -/
inductive Request where
  | getSignatureStatuses
  | guard
  | isBlockhashValid
  | getBlockHeight
  | simulateTransaction
  | sendTransaction
  | sleep
deriving DecidableEq, Repr

/-! ## Answers -/

/-- `await` of a request: its value, or an exception. -/
abbrev Answer (α : Type) := Except String α

/-- `Number.isSafeInteger`. -/
def safeInteger? : Json → Option ℤ
  | .int n => if -2 ^ 53 < n ∧ n < 2 ^ 53 then some n else none
  | .real q => if q.den = 1 ∧ -2 ^ 53 < q.num ∧ q.num < 2 ^ 53 then some q.num else none
  | _ => none

structure Status where
  slot : ℤ
  confirmationStatus : String
  err : Json

def requireThat (c : Prop) [Decidable c] (code : String) : Answer Unit :=
  if c then .ok () else .error code

/-- The value that an answer must have. -/
def requireSome {α : Type} (o : Option α) (code : String) : Answer α :=
  match o with
  | some a => .ok a
  | none => .error code

/-- `signatureStatus`, on the answer of the connection. -/
def signatureStatus (answer : Answer Json) : Answer (Option Status) := do
  let r ← answer
  match (r.get? "value").bind Json.asArr? with
  | some [.null] => pure none
  | some [s] =>
    let slot ← requireSome ((s.get? "slot").bind safeInteger?) "STATUS_VALUE"
    let err ← requireSome (s.get? "err") "STATUS_VALUE"
    let confirmationStatus ←
      requireSome ((s.get? "confirmationStatus").bind Json.asStr?) "STATUS_VALUE"
    requireThat (confirmationStatus ∈ ["processed", "confirmed", "finalized"]) "STATUS_VALUE"
    pure (some { slot, confirmationStatus, err })
  | _ => .error "STATUS_RESPONSE"

def resultForStatus (s : Option Status) : Option Outcome :=
  match s with
  | some s =>
    if s.confirmationStatus = "finalized" then
      some (if s.err.isNull then .FINALIZED s.slot else .ONCHAIN_FAILED s.slot s.err)
    else none
  | none => none

/-- A reason is reported unless it is falsy. -/
def reason? (answer : Option String) : Option String := answer.filter (· ≠ "")

/-! ## The steps of a call -/

/-- Where a call waits. -/
inductive Phase where
  /-- The first status, `possiblySent` being set. -/
  | status (possiblySent : Bool)
  | guard
  | validity
  | height (validity : Json)
  | simulation
  | lastGuard
  | send
  | poll (deadline : ℤ)
  | sleep (deadline : ℤ)
  | returned (outcome : Outcome)

/-- What a call receives when it resumes. -/
inductive Reply where
  | rpc (answer : Answer Json)
  | guard (answer : Answer (Option String))
  | slept

/-- What a step does: it may insert the signature, and it waits for a request or returns. -/
structure Effect where
  phase : Phase
  inserts : Bool
  request : Option Request

/-- The call goes on to wait for a request. -/
def wait (phase : Phase) (request : Request) : Effect := ⟨phase, false, some request⟩

def finish (outcome : Outcome) : Effect := ⟨.returned outcome, false, none⟩

/-- The loop that reconciles the signature starts. -/
def reconcile (now timeoutMs : ℤ) : Effect := wait (.poll (now + timeoutMs)) .getSignatureStatuses

/-- A failed answer ends the call. -/
def attempt {α : Type} (answer : Answer α) (go : α → Effect) : Effect :=
  match answer with
  | .ok a => go a
  | .error code => finish (.thrown code)

/-- `isBlockhashValid` and `getBlockHeight`, as the client checks them. -/
def blockhashStatus (validity height : Json) : Answer (Bool × ℤ) := do
  let valid ← requireSome ((validity.get? "value").bind Json.asBool?) "BLOCKHASH_STATUS"
  let height ← requireSome (safeInteger? height) "BLOCKHASH_STATUS"
  pure (valid, height)

/-- The error and the logs of a simulation. -/
def simulated (sim : Json) : Answer (Json × Option Json) := do
  let value ← requireSome (sim.get? "value") "SIMULATION_RESPONSE"
  let err ← requireSome (value.get? "err") "SIMULATION_RESPONSE"
  pure (err, value.get? "logs")

/-- What a call does with a reply, at a time; `none` where the reply is not what it waits for. -/
def resume (envelope : Envelope) (timeoutMs now : ℤ) : Phase → Reply → Option Effect
  | .status possiblySent, .rpc answer => some <| attempt (signatureStatus answer) fun old ↦
      match resultForStatus old with
      | some existing => finish existing
      | none =>
        if possiblySent || old.isSome then reconcile now timeoutMs else wait .guard .guard
  | .guard, .guard answer => some <| attempt answer fun reason ↦
      match reason? reason with
      | some reason => finish (.REBUILD_AND_RESIGN reason)
      | none => wait .validity .isBlockhashValid
  | .validity, .rpc answer => some <| attempt answer fun validity ↦
      wait (.height validity) .getBlockHeight
  | .height validity, .rpc answer => some <|
      attempt (answer.bind (blockhashStatus validity)) fun (valid, height) ↦
        if !valid || height > envelope.lastValidBlockHeight then
          finish (.REBUILD_AND_RESIGN "BLOCKHASH_EXPIRED")
        else wait .simulation .simulateTransaction
  | .simulation, .rpc answer => some <| attempt (answer.bind simulated) fun (err, logs) ↦
      if err.isNull then wait .lastGuard .guard else finish (.SIMULATION_REJECTED err logs)
  | .lastGuard, .guard answer => some <| attempt answer fun reason ↦
      match reason? reason with
      | some reason => finish (.REBUILD_AND_RESIGN reason)
      | none => ⟨.send, true, some .sendTransaction⟩
  -- A lost or malformed send response cannot establish failure.
  | .send, .rpc _ => some (reconcile now timeoutMs)
  | .poll deadline, .rpc answer => some <|
      match signatureStatus answer with
      | .ok s =>
        match resultForStatus s with
        | some outcome => finish outcome
        | none => if now ≥ deadline then finish .UNKNOWN else wait (.sleep deadline) .sleep
      | .error _ => if now ≥ deadline then finish .UNKNOWN else wait (.sleep deadline) .sleep
  | .sleep deadline, .slept => some <|
      if now ≤ deadline then wait (.poll deadline) .getSignatureStatuses else finish .UNKNOWN
  | _, _ => none

/-! ## Calls on one connection -/

/-- A call: its options, and where it is. -/
structure Call where
  timeoutMs : ℤ
  phase : Phase

/-- The connection's set of attempted signatures, and the calls by the order in which they were
made. -/
structure State where
  attempted : List String
  calls : List Call

/-- What happens: a call is made, or a call resumes. -/
inductive Event where
  | call (inspected : Answer Unit) (timeoutMs : ℤ)
  | resume (index : ℕ) (now : ℤ) (reply : Reply)

/-- A call up to its first `await`. -/
def begin (envelope : Envelope) (attempted : List String) (inspected : Answer Unit) : Effect :=
  attempt inspected fun _ ↦
    wait (.status (decide (envelope.signature ∈ attempted))) .getSignatureStatuses

/-- What the event does to its call. -/
def State.effect? (envelope : Envelope) (s : State) : Event → Option Effect
  | .call inspected _ => some (begin envelope s.attempted inspected)
  | .resume index now reply => do
    let call ← s.calls[index]?
    Client.resume envelope call.timeoutMs now call.phase reply

def State.place (s : State) (phase : Phase) : Event → List Call
  | .call _ timeoutMs => s.calls ++ [⟨timeoutMs, phase⟩]
  | .resume index _ _ => s.calls.modify index fun call ↦ { call with phase }

def State.step? (envelope : Envelope) (s : State) (e : Event) : Option State := do
  let effect ← s.effect? envelope e
  pure {
    attempted := if effect.inserts then envelope.signature :: s.attempted else s.attempted
    calls := s.place effect.phase e }

/-! ## Runs -/

/-- An event and what it did. -/
abbrev Entry := Event × Effect

/-- The entry takes one state to another. -/
def State.Step (envelope : Envelope) (s : State) (x : Entry) (s' : State) : Prop :=
  s.effect? envelope x.1 = some x.2 ∧ s.step? envelope x.1 = some s'

/-- The interleavings of calls on a fresh connection, all of whose steps are as `ok` says. -/
def machine (envelope : Envelope) (ok : State → Entry → Prop) : Machine State Entry where
  opens x s := ok ⟨[], []⟩ x ∧ State.Step envelope ⟨[], []⟩ x s
  step s x s' := ok s x ∧ s.Step envelope x s'

end FundingVaults.Client
