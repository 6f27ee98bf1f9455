import Iot.Json.Lengths
import Iot.Platform.Domain

/-!
# The size of a command in Kafka

`ValidateCommandInput` measures a stand-in for the command that `PublishCommand` will marshal: the
tenant, device and payload of the request with the longest id, status, attempt and times. A time
read from PostgreSQL is written with the offset of the local zone, which the stand-in has not, so
a real time can be longer than its reservation. `length_marshalAt_le` balances the account for a
command that waits to be published: what its status, its attempt and its missing deadline leave
unused covers the offsets.
-/

namespace Iot.Platform

open Text Json Contracts

variable {go : GoRuntime}

/-! ## Lengths -/

/-- A time without a fraction of a second has at most twenty characters. -/
theorem length_rfc3339Nano_whole {t : Time} {s : Bytes} (h : rfc3339Nano t = some s)
    (hwhole : t % second = 0) : s.length ≤ 20 := by
  simp only [rfc3339Nano, hwhole] at h
  split_ifs at h
  cases h
  simp only [List.length_append, pad4, pad2, fraction, List.length_cons, List.length_nil, if_true]
  have hascii : (ascii "-").length = 1 ∧ (ascii "T").length = 1 ∧ (ascii ":").length = 1 ∧
      (ascii "Z").length = 1 := by decide
  omega

/-- A suffix has at most six characters. -/
theorem length_zoneSuffix_le (offset : Int) : (zoneSuffix offset).length ≤ 6 := by
  have hsign : ∀ b : Bool, (ascii (if b then "-" else "+")).length = 1 := by decide
  have hcolon : (ascii ":").length = 1 := rfl
  rw [zoneSuffix]
  split_ifs
  · decide
  · have hsign := hsign (decide (offset.tdiv 60 < 0))
    simp only [decide_eq_true_eq] at hsign
    simp only [List.length_append, hsign, hcolon, pad2, List.length_cons, List.length_nil]
    omega

/-- A time at an offset is at most five characters longer than the same clock in UTC. -/
theorem length_zonedValue_le {offset : Int} {t : Time} {toks : List Tok}
    (h : zonedValue offset t = .ok toks) : ∃ clock, rfc3339Nano (t + offset * second) = some clock ∧
      (Json.text toks).length ≤ clock.length + 7 := by
  obtain ⟨s, hs, _, rfl⟩ := zonedValue_eq_ok.mp h
  obtain ⟨clock, hclock, rfl⟩ := Option.map_eq_some_iff.mp hs
  have hlength := congrArg List.length (rfc3339Nano_dropLast hclock)
  have hsuffix := length_zoneSuffix_le offset
  rw [List.length_append, show (ascii "Z").length = 1 from rfl] at hlength
  refine ⟨clock, hclock, ?_⟩
  rw [length_plainTok, List.length_append]
  omega

namespace Command

/-- The members of a command without a result whose payload and times can be written. -/
def members (cmd : Command) (payload createdAt updatedAt deadlineAt : List Tok) :
    List (String × List Tok) :=
  [("id", strTok cmd.id), ("tenantId", strTok cmd.tenantID), ("deviceId", strTok cmd.deviceID),
    ("status", strTok cmd.status.text), ("payload", payload), ("createdAt", createdAt),
    ("updatedAt", updatedAt), ("dispatchAttempts", intTok cmd.dispatchAttempts),
    ("deadlineAt", deadlineAt)]

/-- A command without a result is written when its payload and its times are. -/
theorem marshalAt_eq_ok {offsets : Offsets} {cmd : Command} {value : Bytes}
    (hresult : cmd.result = none) :
    cmd.marshalAt go offsets = .ok value ↔ ∃ payload createdAt updatedAt deadlineAt,
      rawToks 1 cmd.payload = some payload ∧
      zonedValue offsets.createdAt cmd.createdAt = .ok createdAt ∧
      zonedValue offsets.updatedAt cmd.updatedAt = .ok updatedAt ∧
      zonedValue offsets.deadlineAt cmd.deadlineAt = .ok deadlineAt ∧
      value = Json.text (object (cmd.members payload createdAt updatedAt deadlineAt)) := by
  have hraw : ∀ {payload}, rawValue go 1 cmd.payload = .ok payload ↔
      rawToks 1 cmd.payload = some payload := by
    intro payload
    unfold rawValue
    cases rawToks 1 cmd.payload <;> simp
  have htoks : ∀ {toks}, cmd.toksAt go offsets = .ok toks ↔ ∃ payload,
      rawToks 1 cmd.payload = some payload ∧ ∃ createdAt,
      zonedValue offsets.createdAt cmd.createdAt = .ok createdAt ∧ ∃ updatedAt,
      zonedValue offsets.updatedAt cmd.updatedAt = .ok updatedAt ∧ ∃ deadlineAt,
      zonedValue offsets.deadlineAt cmd.deadlineAt = .ok deadlineAt ∧
      object (cmd.members payload createdAt updatedAt deadlineAt) = toks := by
    intro toks
    simp only [toksAt, bind_eq_ok, hraw, hresult, pure, Except.pure, Except.ok.injEq,
      exists_eq_left', List.append_nil]
    rfl
  rw [marshalAt]
  constructor
  · intro h
    cases hcmd : cmd.toksAt go offsets with
    | error err => simp [hcmd, Except.map] at h
    | ok toks =>
        obtain ⟨payload, hpayload, createdAt, hcreated, updatedAt, hupdated, deadlineAt, hdeadline,
          rfl⟩ := htoks.mp hcmd
        rw [hcmd] at h
        cases h
        exact ⟨payload, createdAt, updatedAt, deadlineAt, hpayload, hcreated, hupdated, hdeadline,
          rfl⟩
  · rintro ⟨payload, createdAt, updatedAt, deadlineAt, hpayload, hcreated, hupdated, hdeadline, rfl⟩
    rw [htoks.mpr ⟨payload, hpayload, createdAt, hcreated, updatedAt, hupdated, deadlineAt,
      hdeadline, rfl⟩]
    rfl

/-- The length of a command without a result. -/
theorem length_members (cmd : Command) (payload createdAt updatedAt deadlineAt : List Tok) :
    (Json.text (object (cmd.members payload createdAt updatedAt deadlineAt))).length =
      quotedLength cmd.id + quotedLength cmd.tenantID + quotedLength cmd.deviceID +
        quotedLength cmd.status.text + (decimal cmd.dispatchAttempts).length +
        (Json.text payload).length + (Json.text createdAt).length + (Json.text updatedAt).length +
        (Json.text deadlineAt).length + 120 := by
  have hint : (Json.text (intTok cmd.dispatchAttempts)).length =
      (decimal cmd.dispatchAttempts).length := by
    simp [intTok, Tok.bytes, Tok.runes]
  rw [members, length_object]
  simp only [List.map_cons, List.map_nil, List.sum_cons, List.sum_nil, memberLength,
    length_strTok, hint]
  have hnames : (ascii "id").length = 2 ∧ (ascii "tenantId").length = 8 ∧
      (ascii "deviceId").length = 8 ∧ (ascii "status").length = 6 ∧
      (ascii "payload").length = 7 ∧ (ascii "createdAt").length = 9 ∧
      (ascii "updatedAt").length = 9 ∧ (ascii "dispatchAttempts").length = 16 ∧
      (ascii "deadlineAt").length = 10 := by decide
  obtain ⟨h1, h2, h3, h4, h5, h6, h7, h8, h9⟩ := hnames
  rw [h1, h2, h3, h4, h5, h6, h7, h8, h9]
  omega

/-- Each time of the stand-in takes thirty characters and its quotes. -/
theorem length_lastStamp {toks : List Tok} (h : zonedValue 0 lastStamp = .ok toks) :
    (Json.text toks).length = 32 := by
  have hstamp : rfc3339Nano lastStamp = some (ascii "9999-12-31T23:59:59.999999999Z") := by decide
  obtain ⟨s, hs, _, rfl⟩ := zonedValue_eq_ok.mp h
  rw [rfc3339NanoAt_zero, hstamp] at hs
  cases hs
  rw [length_plainTok]
  decide

/-- The attempt of the stand-in takes ten digits. -/
theorem length_large {n : Int} (h : 1000000000 ≤ n) : 9 < (decimal n).length := by
  have hpow : Nat.pow 10 9 ≤ n.natAbs := by
    rw [show Nat.pow 10 9 = 1000000000 from rfl]
    omega
  rw [decimal_eq, if_neg (by omega), List.nil_append]
  exact lt_length_digits hpow

/-- The length of a command like the stand-in. -/
theorem le_length_marshal {cmd : Command} {value : Bytes} (h : cmd.marshal go = .ok value)
    (hid : quotedLength cmd.id = 36) (hstatus : cmd.status = .published)
    (hattempts : 9 < (decimal cmd.dispatchAttempts).length) (hcreated : cmd.createdAt = lastStamp)
    (hupdated : cmd.updatedAt = lastStamp) (hdeadline : cmd.deadlineAt = lastStamp)
    (hresult : cmd.result = none) :
    ∃ toks, rawToks 1 cmd.payload = some toks ∧
      quotedLength cmd.tenantID + quotedLength cmd.deviceID + (Json.text toks).length + 271 ≤
        value.length := by
  rw [marshal, marshalAt_eq_ok hresult, hcreated, hupdated, hdeadline] at h
  -- the times of the stand-in are numbers too large for arithmetic on the lengths
  clear hcreated hupdated hdeadline
  obtain ⟨toks, createdAt, updatedAt, deadlineAt, htoks, hcreated, hupdated, hdeadline, rfl⟩ := h
  have hpublished : quotedLength cmd.status.text = 9 := by
    rw [hstatus]
    exact quotedLength_of_all (by decide)
  refine ⟨toks, htoks, ?_⟩
  rw [length_members, length_lastStamp hcreated, length_lastStamp hupdated,
    length_lastStamp hdeadline, hid, hpublished]
  omega

/-- An accepted input has a payload that can be written and leaves room for the other members of
the stand-in. -/
theorem length_of_accepted {tenant device payload : Bytes}
    (h : validateCommandInput go tenant device payload = .ok ()) :
    ∃ toks, rawToks 1 (orEmptyObject payload) = some toks ∧
      quotedLength tenant + quotedLength device + (Json.text toks).length + 271 ≤
        maxCommandValueBytes := by
  simp only [validateCommandInput, bind_eq_ok, returnIf_eq_ok, not_lt] at h
  obtain ⟨_, _, value, hvalue, hlength⟩ := h
  have hid : quotedLength (List.replicate 36 0x78) = 36 := quotedLength_of_all (by decide)
  have hattempts : 9 < (decimal 2147483647).length := length_large (by omega)
  obtain ⟨toks, htoks, hroom⟩ := le_length_marshal hvalue hid rfl hattempts rfl rfl rfl rfl
  exact ⟨toks, htoks, hroom.trans hlength⟩

/-- A missing payload is written as `null`, two bytes longer than what stands for it in the check;
any other is written as it was measured. -/
theorem length_payload {payload : Bytes} {toks measured : List Tok}
    (h : rawToks 1 payload = some toks)
    (hmeasured : rawToks 1 (orEmptyObject payload) = some measured) :
    (Json.text toks).length ≤ (Json.text measured).length + 2 := by
  rw [orEmptyObject] at hmeasured
  split_ifs at hmeasured with hempty
  · have hnull : rawToks 1 [] = some [.word .nul] := rfl
    have hobject : rawToks 1 (ascii "\x7b\x7d") = some [.lbrace, .rbrace] := by decide
    rw [hempty, hnull] at h
    rw [hobject] at hmeasured
    cases h
    cases hmeasured
    decide
  · rw [hmeasured] at h
    cases h
    omega

/-- A command that waits to be published is not longer than its stand-in. The offsets add at most
fifteen bytes to the times and a missing payload two; the missing deadline leaves ten unused, the
status two and the attempt eight. -/
theorem length_marshalAt_le {cmd : Command} {offsets : Offsets} {value : Bytes}
    (haccepted : validateCommandInput go cmd.tenantID cmd.deviceID cmd.payload = .ok ())
    (hid : quotedLength cmd.id ≤ 36) (hstatus : cmd.status = .created)
    (hattempts : (decimal cmd.dispatchAttempts).length ≤ 2) (hdeadline : cmd.deadlineAt = zeroTime)
    (hresult : cmd.result = none) (h : cmd.marshalAt go offsets = .ok value) :
    value.length ≤ maxCommandValueBytes := by
  obtain ⟨measured, hmeasured, hroom⟩ := length_of_accepted haccepted
  obtain ⟨payload, createdAt, updatedAt, deadlineAt, hpayload, hcreated, hupdated, hdeadlineAt,
    rfl⟩ := (marshalAt_eq_ok hresult).mp h
  obtain ⟨created, hcreated, hcreatedLength⟩ := length_zonedValue_le hcreated
  obtain ⟨updated, hupdated, hupdatedLength⟩ := length_zonedValue_le hupdated
  obtain ⟨clock, hclock, hclockLength⟩ := length_zonedValue_le hdeadlineAt
  have hcreated := length_rfc3339Nano_le hcreated
  have hupdated := length_rfc3339Nano_le hupdated
  have hwhole : (cmd.deadlineAt + offsets.deadlineAt * second) % second = 0 := by
    rw [hdeadline, zeroTime, ← Int.add_mul, Int.mul_emod_left]
  have hclock := length_rfc3339Nano_whole hclock hwhole
  have hpayload := length_payload hpayload hmeasured
  have hcreatedStatus : quotedLength cmd.status.text = 7 := by
    rw [hstatus]
    exact quotedLength_of_all (by decide)
  rw [length_members, hcreatedStatus]
  omega

end Command

end Iot.Platform
