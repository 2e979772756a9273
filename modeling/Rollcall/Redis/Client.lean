import Rollcall.Backoff
import Rollcall.Redis.Command
import Rollcall.Redis.Pool

/-!
Calls one after the other.

A client is a pool and the network that it reaches the store through. Here no call overlaps with
another, so each runs to its end.
-/

namespace Rollcall.Redis

/-- What lies between the client and the store. Everything may take time. -/
class Network (σ : Type) where
  now : σ → Span
  /-- Try to make the connection with this number. -/
  dial : (conn : Nat) → σ → Except Failure Unit × σ
  /-- Send a command over a connection. -/
  ask : (conn : Nat) → Command → σ → Except Failure Reply × σ
  sleep : Span → σ → σ

structure Client (σ : Type) where
  pool : Pool
  net : σ

namespace Client

variable {σ α : Type} [Network σ]

def create (policy : Breaker.Policy) (net : σ) : Client σ :=
  ⟨Pool.create policy (Network.now net), net⟩

/-- A dialog over one connection. -/
def talk (conn : Nat) : Dialog α → σ → Except Failure α × σ
  | .finished result, net => (result, net)
  | .ask command next, net =>
      let (answer, net) := Network.ask conn command net
      talk conn (next answer) net

/-- One step of a call, for which the network does what the phase of the call waits for. -/
def step (dialog : Dialog α) (call : Call α) (c : Client σ) : Option (Call α × Client σ) :=
  let (signal, net) : Signal α × σ :=
    match call with
    | .dialing =>
        let (result, net) := Network.dial c.pool.made c.net
        (.dialed result, net)
    | .talking conn =>
        let (result, net) := talk conn dialog c.net
        (.answered result, net)
    | _ => (.nothing, c.net)
  (call.step (Network.now net) signal c.pool).map fun (call, pool) => (call, ⟨pool, net⟩)

/-- Steps of a call until it has come as far as `isDone` asks, is held up or has ended. -/
def proceed (dialog : Dialog α) (isDone : Call α → Bool) : (fuel : Nat) → Call α → Client σ →
    Call α × Client σ
  | 0, call, c => (call, c)
  | fuel + 1, call, c =>
      if isDone call then (call, c)
      else match step dialog call c with
        | none => (call, c)
        | some (call, c) => proceed dialog isDone fuel call c

/-- No call takes more steps than this. -/
def longest : Nat := 6

/-- The call counts as refused if it was held up by one that never went on. -/
def execute (c : Client σ) (dialog : Dialog α) : Except CallFailure α × Client σ :=
  let (call, c) := proceed dialog (fun _ => false) longest .fresh c
  (call.outcome?.getD (.error .circuitOpen), c)

def connect (c : Client σ) : Except CallFailure Unit × Client σ :=
  let (call, c) := proceed (.finished (.ok ())) Call.isTalking longest .fresh c
  (call.outcome?.getD (.ok ()), c)

def ping (c : Client σ) : Except CallFailure Unit × Client σ := c.execute Dialog.ping

/-- Up to `left` attempts to reach the store, with a delay after each that fails but the last.
`draw` gives the part of each delay that is left to chance. -/
def attempt (draw : Nat → Binary64) : (left : Nat) → Backoff → Client σ → Bool × Client σ
  | 0, _, c => (false, c)
  | left + 1, b, c =>
      match c.ping with
      | (.ok (), c) => (true, c)
      | (.error _, c) =>
          if left = 0 then (false, c)
          else
            let (delay, b) := b.step (draw b.attempt)
            attempt draw left b { c with net := Network.sleep delay c.net }

def warmUp (c : Client σ) (attempts : Nat) (draw : Nat → Binary64) : Bool × Client σ :=
  attempt draw (max attempts 1) (Backoff.create .default) c

end Client
end Rollcall.Redis
