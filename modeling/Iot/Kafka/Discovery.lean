import Iot.Contracts.Errors
import Iot.Execution.Run
import Iot.Text.Time
import Mathlib.Algebra.Order.Field.Rat
import Mathlib.Data.Rat.Cast.Order
import Mathlib.Tactic.Linarith

/-!
# Bootstrap probing

`discoverKafkaController` (`kafka_topics.go`) asks one bootstrap address after the other for the
controller. Each probe may take an equal share of what is left of the deadline, with one share kept
back for the work on the controller. `controller_time_reserved` bounds what the probes leave, for
every number of addresses and whatever each probe takes of its share.
-/

namespace Iot.Kafka

open Text Execution

/-- A `kafka.Broker`. -/
structure Broker where
  host : Bytes
  port : Int
  deriving DecidableEq, Repr

/-- One bootstrap address and how the outside answers: what `ctx.Err` returns before the probe,
how long the connection and the lookup would take, and what they return. -/
structure Probe where
  address : Bytes
  ctxErr : Option GoError
  needed : Nat
  controller : Except GoError Broker

/-- The loop of `discoverKafkaController`: the index of the next address, the time to the deadline
of the context if it has one, the failures so far, and what was returned. -/
structure Discovery where
  index : Nat
  remaining : Option Time
  failures : List GoError
  returned : Option (Except GoError Broker)

/-- The loop before the first address. -/
def Discovery.start (remaining : Option Time) : Discovery := ⟨0, remaining, [], none⟩

/-- The timeout of the probe with this index. -/
def probeTimeout (brokers index : Nat) : Option Time → Time
  | none => second
  | some remaining => remaining.tdiv (brokers - index + 1)

/-- `fmt.Errorf("bootstrap %s: %w", address, err)`. -/
def bootstrapError (address : Bytes) (err : GoError) : GoError :=
  ⟨ascii "bootstrap " ++ address ++ ascii ": " ++ err.text, err.wraps⟩

/-- One pass through the loop. The context of the probe ends it at its timeout, so it takes what it
needs or its timeout. -/
def discoverStep (brokers : Nat) (loop : Discovery) (probe : Probe) : Discovery :=
  if loop.returned.isSome then loop
  else
    match probe.ctxErr with
    | some err => { loop with returned := some (.error err) }
    | none =>
        let took := min (probe.needed : Time) (probeTimeout brokers loop.index loop.remaining)
        let remaining := loop.remaining.map (· - took)
        match probe.controller with
        | .ok broker => { loop with remaining := remaining, returned := some (.ok broker) }
        | .error err =>
            { loop with
              index := loop.index + 1
              remaining := remaining
              failures := loop.failures ++ [bootstrapError probe.address err] }

/-- `errors.Join`, which is no error when there is none to join. -/
def joinErrors (errs : List GoError) : Option GoError :=
  if errs.isEmpty then none
  else some ⟨(ascii "\n").intercalate (errs.map GoError.text), errs.flatMap GoError.wraps⟩

/-- `discoverKafkaController` over the addresses with their answers. -/
def discoverKafkaController (probes : List Probe) (remaining : Option Time) :
    Except GoError Broker :=
  let loop := run (discoverStep probes.length) (.start remaining) probes
  match loop.returned with
  | some result => result
  | none =>
      match joinErrors loop.failures with
      | some err => .error err
      | none => .ok ⟨[], 0⟩

/-! ## Shares of the remaining time -/

/-- Of `shares + 1` equal shares one is spent: the others are at least what they were. Rounding
down the share only helps. -/
theorem shares_left {total remaining took : Int} {shares whole : Nat}
    (htook : took ≤ remaining / (shares + 1 : Nat))
    (h : total * (shares + 1 : Nat) ≤ remaining * whole) :
    total * shares ≤ (remaining - took) * whole := by
  have hpos : (0 : Int) < (shares + 1 : Nat) := by omega
  have hspent : took * (shares + 1 : Nat) ≤ remaining :=
    (Int.le_ediv_iff_mul_le hpos).mp htook
  have hkept : remaining * shares ≤ (remaining - took) * (shares + 1 : Nat) := by
    push_cast at hspent ⊢
    linarith
  refine le_of_mul_le_mul_right ?_ hpos
  calc total * shares * (shares + 1 : Nat)
      = total * (shares + 1 : Nat) * shares := Int.mul_right_comm _ _ _
    _ ≤ remaining * whole * shares := Int.mul_le_mul_of_nonneg_right h (Int.natCast_nonneg _)
    _ = remaining * shares * whole := Int.mul_right_comm _ _ _
    _ ≤ (remaining - took) * (shares + 1 : Nat) * whole :=
        Int.mul_le_mul_of_nonneg_right hkept (Int.natCast_nonneg _)
    _ = (remaining - took) * whole * (shares + 1 : Nat) := Int.mul_right_comm _ _ _

/-- What the loop has left after `probed` of the addresses: the shares of the other addresses and
the one of the controller. -/
structure Reserved (total : Time) (brokers : Nat) (loop : Discovery) (probed : Nat) : Prop where
  index : loop.returned = none → loop.index = probed
  remaining : ∃ remaining, loop.remaining = some remaining ∧ 0 ≤ remaining ∧
    total * (brokers - probed + 1 : Nat) ≤ remaining * (brokers + 1 : Nat)

variable {total : Time} {brokers probed : Nat} {loop : Discovery}

/-- Fewer shares are kept as well. -/
theorem Reserved.next (h : Reserved total brokers loop probed) (htotal : 0 ≤ total)
    (hreturned : loop.returned ≠ none) : Reserved total brokers loop (probed + 1) := by
  obtain ⟨remaining, hremaining, hpos, hshares⟩ := h.remaining
  refine ⟨fun hnone => absurd hnone hreturned, remaining, hremaining, hpos, ?_⟩
  refine le_trans (Int.mul_le_mul_of_nonneg_left ?_ htotal) hshares
  exact_mod_cast (by omega : brokers - (probed + 1) + 1 ≤ brokers - probed + 1)

/-- A probe takes no more than one share. -/
theorem Reserved.probe (h : Reserved total brokers loop probed) (hprobed : probed < brokers)
    (hreturned : loop.returned = none) (needed : Nat) :
    ∃ remaining, loop.remaining.map
        (· - min (needed : Time) (probeTimeout brokers loop.index loop.remaining)) =
          some remaining ∧ 0 ≤ remaining ∧
        total * (brokers - (probed + 1) + 1 : Nat) ≤ remaining * (brokers + 1 : Nat) := by
  obtain ⟨remaining, hremaining, hpos, hshares⟩ := h.remaining
  -- the code divides by the number of addresses left and one more
  have hdivisor : (brokers - loop.index + 1 : Int) = (brokers - probed + 1 : Nat) := by
    rw [h.index hreturned]
    omega
  rw [hremaining, probeTimeout, hdivisor, Int.tdiv_eq_ediv_of_nonneg hpos]
  have hshare : min (needed : Time) (remaining / (brokers - probed + 1 : Nat)) ≤
      remaining / (brokers - probed + 1 : Nat) := min_le_right _ _
  refine ⟨_, rfl, ?_, ?_⟩
  · have hle : remaining / ((brokers - probed + 1 : Nat) : Int) ≤ remaining :=
      Int.ediv_le_self _ hpos
    exact Int.sub_nonneg.mpr (hshare.trans hle)
  · rw [show brokers - (probed + 1) + 1 = brokers - probed by omega]
    exact shares_left hshare hshares

/-- One pass through the loop uses up at most one share. -/
theorem step_reserved (h : Reserved total brokers loop probed) (htotal : 0 ≤ total)
    (hprobed : probed < brokers) (probe : Probe) :
    Reserved total brokers (discoverStep brokers loop probe) (probed + 1) := by
  rw [discoverStep]
  split_ifs with hreturned
  · exact h.next htotal fun hnone => by simp [hnone] at hreturned
  have hreturned : loop.returned = none := by simpa using hreturned
  split
  next err _ =>
    have hended : Reserved total brokers { loop with returned := some (.error err) } probed :=
      ⟨fun hnone => (by cases hnone), h.remaining⟩
    exact hended.next htotal fun hnone => by cases hnone
  · have hprobe := h.probe hprobed hreturned probe.needed
    split
    · exact ⟨fun hnone => (by cases hnone), hprobe⟩
    · exact ⟨fun _ => congrArg (· + 1) (h.index hreturned), hprobe⟩

/-- The loop over some of the addresses uses up at most their shares. -/
theorem run_reserved (htotal : 0 ≤ total) (h : Reserved total brokers loop probed)
    (probes : List Probe) (hprobes : probed + probes.length ≤ brokers) :
    Reserved total brokers (run (discoverStep brokers) loop probes) (probed + probes.length) := by
  induction probes generalizing loop probed with
  | nil => exact h
  | cons probe rest ih =>
      rw [List.length_cons] at hprobes
      rw [run_cons, List.length_cons, Nat.add_comm rest.length, ← Nat.add_assoc]
      exact ih (step_reserved h htotal (by omega) probe) (by omega)

/-- Before every probe of the `n` addresses, counted from 0, the time left is at least the share
`n - i + 1` of `n + 1` of the time at the start, and after the last one it is at least one share,
in exact arithmetic. -/
theorem controller_time_reserved (probes : List Probe) (total : Time) (htotal : 0 ≤ total) :
    (∀ i, i < probes.length → ∃ remaining,
      (run (discoverStep probes.length) (.start (some total)) (probes.take i)).remaining =
          some remaining ∧
        (total : ℚ) * (probes.length - i + 1) / (probes.length + 1) ≤ remaining) ∧
    ∃ remaining,
      (run (discoverStep probes.length) (.start (some total)) probes).remaining =
          some remaining ∧
        (total : ℚ) / (probes.length + 1) ≤ remaining := by
  have hpos : (0 : ℚ) < probes.length + 1 := by positivity
  have hstart : Reserved total probes.length (.start (some total)) 0 :=
    ⟨fun _ => rfl, total, rfl, htotal, by simp⟩
  have hreserved : ∀ i ≤ probes.length, ∃ remaining,
      (run (discoverStep probes.length) (.start (some total)) (probes.take i)).remaining =
          some remaining ∧
        (total : ℚ) * (probes.length - i + 1) / (probes.length + 1) ≤ remaining := by
    intro i hi
    have hlength : (probes.take i).length = i := List.length_take_of_le hi
    have hrun := run_reserved htotal hstart (probes.take i) (by omega)
    rw [hlength, Nat.zero_add] at hrun
    obtain ⟨remaining, hremaining, _, hshares⟩ := hrun.remaining
    refine ⟨remaining, hremaining, (div_le_iff₀ hpos).mpr ?_⟩
    have hcast : ((probes.length - i + 1 : Nat) : ℚ) = probes.length - i + 1 := by
      rw [Nat.cast_add, Nat.cast_sub hi, Nat.cast_one]
    rw [← hcast]
    exact_mod_cast hshares
  refine ⟨fun i hi => hreserved i hi.le, ?_⟩
  obtain ⟨remaining, hremaining, hshares⟩ := hreserved probes.length le_rfl
  rw [List.take_length] at hremaining
  exact ⟨remaining, hremaining, by simpa using hshares⟩

/-- Three addresses that use up their timeouts leave at least a quarter of ten nanoseconds. -/
theorem controller_time_reserved_slow :
    (0 : Time) ≤ 10 ∧ ∃ remaining,
      (run (discoverStep 3) (.start (some 10))
        (List.replicate 3 ⟨[], none, 10, .error (.new "timeout")⟩)).remaining = some remaining ∧
      ((10 : Time) : ℚ) / ((3 : Nat) + 1) ≤ remaining :=
  ⟨by decide, (controller_time_reserved
    (List.replicate 3 ⟨[], none, 10, .error (.new "timeout")⟩) 10 (by decide)).2⟩

end Iot.Kafka
