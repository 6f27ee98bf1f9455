import Iot.Contracts.Identity
import Iot.Text.Order
import Iot.Text.Sha256
import Iot.Worker.Consumers
import Mathlib.Data.Fintype.EquivFin

/-!
# Consumer groups of tenant-scoped workers

A worker with a tenant allowlist commits past the messages of other tenants, so it may share a
consumer group, and with it the offsets, only with workers that have the same allowlist. `NewWorker`
derives the group from a digest of the allowlist (`tenantSetHash`). `consumer_groups_canonical` says
that two workers are in one group exactly when they are for the same tenants, as long as the digest
has no collision on their allowlists.
-/

namespace Iot.Worker

open Text Contracts Platform

/-- One pass of the first loop of `tenantSetHash`: an empty id and a repeated one are dropped. -/
def noteTenant (seen : List Bytes) (id : Bytes) : List Bytes :=
  if id.isEmpty || seen.contains id then seen else seen ++ [id]

/-- The first loop of `tenantSetHash`. -/
def distinctTenants (tenantIDs : List Bytes) : List Bytes := tenantIDs.foldl noteTenant []

/-- What `tenantSetHash` hashes: the ids in order, each with a NUL after it. -/
def tenantEncoding (tenantIDs : List Bytes) : Bytes :=
  (sortStrings (distinctTenants tenantIDs)).flatMap fun id => id ++ [0]

/-- The first half of a digest in hexadecimal. -/
def shortHash (message : Bytes) : Bytes := (sha256Hex message).take 32

/-- `tenantSetHash`. -/
def tenantSetHash (tenantIDs : List Bytes) : Bytes := shortHash (tenantEncoding tenantIDs)

/-- The consumer group of `NewWorker`, without the name of the consumer. -/
def groupID (kafkaGroupID : Bytes) (cfg : WorkerConfig) : Bytes :=
  let groupID := if kafkaGroupID = [] then ascii "iot-device-worker" else kafkaGroupID
  if tenantAllowlist cfg.tenantIDs = [] then groupID
  else groupID ++ ascii "-" ++ tenantSetHash cfg.tenantIDs

/-- The group of the telemetry reader. -/
def telemetryGroup (kafkaGroupID : Bytes) (cfg : WorkerConfig) : Bytes :=
  groupID kafkaGroupID cfg ++ ascii "-telemetry"

/-- The group of the command reader. -/
def commandGroup (kafkaGroupID : Bytes) (cfg : WorkerConfig) : Bytes :=
  groupID kafkaGroupID cfg ++ ascii "-command"

/-! ## The digest -/

/-- The loop keeps each id of the allowlist once. -/
theorem distinctTenants_spec (tenantIDs : List Bytes) :
    (distinctTenants tenantIDs).Nodup ∧
      ∀ id, id ∈ distinctTenants tenantIDs ↔ id ∈ tenantAllowlist tenantIDs := by
  -- what the loop has seen after some ids, starting from any list without repetitions
  have hloop : ∀ (ids seen : List Bytes), seen.Nodup →
      (ids.foldl noteTenant seen).Nodup ∧
      ∀ id, id ∈ ids.foldl noteTenant seen ↔ id ∈ seen ∨ (id ∈ ids ∧ id ≠ []) := by
    intro ids
    induction ids with
    | nil => intro seen hseen; simp [hseen]
    | cons first rest ih =>
        intro seen hseen
        rw [List.foldl_cons, noteTenant]
        simp only [Bool.or_eq_true, List.isEmpty_iff, List.contains_iff_mem]
        split_ifs with hskip
        · refine ⟨(ih seen hseen).1, fun id => ?_⟩
          rw [(ih seen hseen).2 id, List.mem_cons]
          constructor
          · rintro (h | ⟨h, hne⟩)
            · exact .inl h
            · exact .inr ⟨.inr h, hne⟩
          · rintro (h | ⟨rfl | h, hne⟩)
            · exact .inl h
            · exact .inl (hskip.resolve_left hne)
            · exact .inr ⟨h, hne⟩
        · simp only [not_or] at hskip
          have hnodup : (seen ++ [first]).Nodup :=
            List.nodup_append.mpr ⟨hseen, List.nodup_singleton _, fun a ha b hb heq => by
              rw [List.mem_singleton] at hb
              exact hskip.2 (hb ▸ heq ▸ ha)⟩
          refine ⟨(ih _ hnodup).1, fun id => ?_⟩
          rw [(ih _ hnodup).2 id, List.mem_append, List.mem_singleton, List.mem_cons]
          constructor
          · rintro ((h | rfl) | ⟨h, hne⟩)
            · exact .inl h
            · exact .inr ⟨.inl rfl, hskip.1⟩
            · exact .inr ⟨.inr h, hne⟩
          · rintro (h | ⟨rfl | h, hne⟩)
            · exact .inl (.inl h)
            · exact .inl (.inr rfl)
            · exact .inr ⟨h, hne⟩
  obtain ⟨hnodup, hmem⟩ := hloop tenantIDs [] List.nodup_nil
  refine ⟨hnodup, fun id => ?_⟩
  rw [distinctTenants, hmem id, tenantAllowlist, List.mem_filter]
  simp

/-- Texts without NUL can be told apart when each has a NUL after it. -/
theorem terminated_injective {texts others : List Bytes} (h : ∀ text ∈ texts, 0 ∉ text)
    (h' : ∀ text ∈ others, 0 ∉ text)
    (heq : texts.flatMap (fun text => text ++ [0]) = others.flatMap fun text => text ++ [0]) :
    texts = others := by
  induction texts generalizing others with
  | nil =>
      obtain _ | ⟨first, rest⟩ := others
      · rfl
      · simp at heq
  | cons text rest ih =>
      obtain _ | ⟨other, others⟩ := others
      · simp at heq
      rw [List.flatMap_cons, List.flatMap_cons, List.append_assoc, List.append_assoc,
        List.singleton_append, List.singleton_append] at heq
      have hcut := congrArg (fun s => cut s 0) heq
      simp only [cut_append (h text (by simp)), cut_append (h' other (by simp)), Prod.mk.injEq,
        and_true] at hcut
      rw [hcut.1, ih (fun t ht => h t (by simp [ht])) (fun t ht => h' t (by simp [ht])) hcut.2]

/-- The ids are NUL-free. -/
def NulFree (tenantIDs : List Bytes) : Prop := ∀ id ∈ tenantIDs, 0 ∉ id

/-- The encoding is the same exactly for the same set of tenants. -/
theorem tenantEncoding_eq_iff {a b : List Bytes} (ha : NulFree a) (hb : NulFree b) :
    tenantEncoding a = tenantEncoding b ↔
      ∀ id, id ∈ tenantAllowlist a ↔ id ∈ tenantAllowlist b := by
  obtain ⟨hnodup, hmem⟩ := distinctTenants_spec a
  obtain ⟨hnodup', hmem'⟩ := distinctTenants_spec b
  have hnul : ∀ {ids : List Bytes}, NulFree ids →
      ∀ id ∈ sortStrings (distinctTenants ids), 0 ∉ id := by
    intro ids hids id hid
    rw [mem_sortStrings, (distinctTenants_spec ids).2] at hid
    exact hids id (List.mem_of_mem_filter hid)
  have hsorted : tenantEncoding a = tenantEncoding b ↔
      sortStrings (distinctTenants a) = sortStrings (distinctTenants b) :=
    ⟨terminated_injective (hnul ha) (hnul hb), fun h => by rw [tenantEncoding, h, tenantEncoding]⟩
  simp only [hsorted, sortStrings_eq_iff hnodup hnodup', hmem, hmem']

/-- `tenantSetHash` is the same for the same set of tenants, and only then if the two encodings do
not collide. -/
theorem tenantSetHash_eq_iff {a b : List Bytes} (ha : NulFree a) (hb : NulFree b)
    (hsha : shortHash (tenantEncoding a) = shortHash (tenantEncoding b) →
      tenantEncoding a = tenantEncoding b) :
    tenantSetHash a = tenantSetHash b ↔
      ∀ id, id ∈ tenantAllowlist a ↔ id ∈ tenantAllowlist b := by
  rw [← tenantEncoding_eq_iff ha hb]
  exact ⟨hsha, fun h => by rw [tenantSetHash, h, tenantSetHash]⟩

/-! ## The group -/

/-- Some id is not in a list. -/
theorem exists_notMem (ids : List Bytes) : ∃ id, id ∉ ids := by
  obtain ⟨id, hid⟩ := Infinite.exists_notMem_finset ids.toFinset
  exact ⟨id, fun hmem => hid (List.mem_toFinset.mpr hmem)⟩

/-- Workers are for the same tenants when both are for all, or when both have an allowlist and it
is the same set. -/
theorem tenantAllowed_eq_iff {cfg cfg' : WorkerConfig} :
    (∀ tenantID, tenantAllowed cfg tenantID = tenantAllowed cfg' tenantID) ↔
      (tenantAllowlist cfg.tenantIDs = [] ↔ tenantAllowlist cfg'.tenantIDs = []) ∧
        ∀ id, id ∈ tenantAllowlist cfg.tenantIDs ↔ id ∈ tenantAllowlist cfg'.tenantIDs := by
  unfold tenantAllowed
  generalize tenantAllowlist cfg.tenantIDs = allowed
  generalize tenantAllowlist cfg'.tenantIDs = allowed'
  obtain ⟨other, hother⟩ := exists_notMem allowed
  obtain ⟨other', hother'⟩ := exists_notMem allowed'
  cases allowed with
  | nil =>
      cases allowed' with
      | nil => simp
      | cons first rest =>
          refine ⟨fun h => ?_, fun h => by simp at h⟩
          have hfalse := h other'
          simp only [List.isEmpty_nil, List.isEmpty_cons, Bool.true_or, Bool.false_or] at hfalse
          exact absurd (List.contains_iff_mem.mp hfalse.symm) hother'
  | cons first rest =>
      cases allowed' with
      | nil =>
          refine ⟨fun h => ?_, fun h => by simp at h⟩
          have hfalse := h other
          simp only [List.isEmpty_nil, List.isEmpty_cons, Bool.true_or, Bool.false_or] at hfalse
          exact absurd (List.contains_iff_mem.mp hfalse) hother
      | cons first' rest' =>
          simp only [List.isEmpty_cons, Bool.false_or, reduceCtorEq, true_and]
          refine forall_congr' fun id => ?_
          rw [Bool.eq_iff_iff, List.contains_iff_mem, List.contains_iff_mem]

/-- A group with a digest is longer than one without. -/
theorem groupID_eq_iff {kafkaGroupID : Bytes} {cfg cfg' : WorkerConfig}
    (h : NulFree cfg.tenantIDs) (h' : NulFree cfg'.tenantIDs)
    (hsha : shortHash (tenantEncoding cfg.tenantIDs) = shortHash (tenantEncoding cfg'.tenantIDs) →
      tenantEncoding cfg.tenantIDs = tenantEncoding cfg'.tenantIDs) :
    groupID kafkaGroupID cfg = groupID kafkaGroupID cfg' ↔
      ∀ tenantID, tenantAllowed cfg tenantID = tenantAllowed cfg' tenantID := by
  rw [tenantAllowed_eq_iff, groupID, groupID]
  have hhash := tenantSetHash_eq_iff h h' hsha
  generalize (if kafkaGroupID = [] then ascii "iot-device-worker" else kafkaGroupID) = base
  have hlonger : ∀ hash : Bytes, base ≠ base ++ ascii "-" ++ hash := by
    intro hash heq
    have hlength := congrArg List.length heq
    simp only [List.length_append, show (ascii "-").length = 1 from rfl] at hlength
    omega
  by_cases hempty : tenantAllowlist cfg.tenantIDs = [] <;>
    by_cases hempty' : tenantAllowlist cfg'.tenantIDs = []
  · simp [hempty, hempty']
  · rw [if_pos hempty, if_neg hempty']
    exact iff_of_false (hlonger _) fun hsame => hempty' (hsame.1.mp hempty)
  · rw [if_neg hempty, if_pos hempty']
    exact iff_of_false (hlonger _).symm fun hsame => hempty (hsame.1.mpr hempty')
  · simp only [hempty, hempty', if_false, List.append_cancel_left_eq, hhash, true_and]

/-! ## What a group skips -/

/-- The telemetry consumer commits past a message, without storing it, exactly when the message is
a record of a tenant the worker is not for. -/
theorem skips_iff {go : GoRuntime} {pg : Store.Postgres} {cfg : WorkerConfig}
    {world : Telemetry.World} {msg : Message} {position : Nat → Nat} :
    (consumeTelemetry go pg cfg world ⟨.fetched msg, position⟩ .decode).2.consumer =
        .committing msg ↔
      ∃ rec, TelemetryRecord.unmarshal go msg.value = .ok rec ∧
        tenantAllowed cfg rec.tenantID = false := by
  simp only [consumeTelemetry]
  cases hrec : TelemetryRecord.unmarshal go msg.value with
  | error err => simp [Telemetry.Worker.step, hrec]
  | ok rec =>
      cases hallowed : tenantAllowed cfg rec.tenantID with
      | false => simp [hallowed]
      | true => simp [Telemetry.Worker.step, hrec, hallowed]

/-- The digest is the same exactly for the same set of tenants, whatever the order, repetitions and
empty ids. Two workers with the same group setting are in one group exactly when they are for the
same tenants, and then neither commits past a message that the other would process. -/
theorem consumer_groups_canonical (a b : List Bytes) (ha : NulFree a) (hb : NulFree b)
    (hsha : shortHash (tenantEncoding a) = shortHash (tenantEncoding b) →
      tenantEncoding a = tenantEncoding b) :
    (tenantSetHash a = tenantSetHash b ↔
      ∀ id, id ∈ tenantAllowlist a ↔ id ∈ tenantAllowlist b) ∧
    ∀ (kafkaGroupID : Bytes) (cfg cfg' : WorkerConfig), cfg.tenantIDs = a → cfg'.tenantIDs = b →
      (telemetryGroup kafkaGroupID cfg = telemetryGroup kafkaGroupID cfg' ↔
        ∀ tenantID, tenantAllowed cfg tenantID = tenantAllowed cfg' tenantID) ∧
      (commandGroup kafkaGroupID cfg = commandGroup kafkaGroupID cfg' ↔
        ∀ tenantID, tenantAllowed cfg tenantID = tenantAllowed cfg' tenantID) ∧
      (telemetryGroup kafkaGroupID cfg = telemetryGroup kafkaGroupID cfg' →
        ∀ (go : GoRuntime) (pg : Store.Postgres) (world world' : Telemetry.World) (msg : Message)
          (position position' : Nat → Nat),
          (consumeTelemetry go pg cfg world ⟨.fetched msg, position⟩ .decode).2.consumer =
              .committing msg ↔
            (consumeTelemetry go pg cfg' world' ⟨.fetched msg, position'⟩ .decode).2.consumer =
              .committing msg) ∧
      (commandGroup kafkaGroupID cfg = commandGroup kafkaGroupID cfg' →
        ∀ (go : GoRuntime) (msg : Message),
          checkCommandMessage go cfg msg = checkCommandMessage go cfg' msg) := by
  refine ⟨tenantSetHash_eq_iff ha hb hsha, ?_⟩
  rintro kafkaGroupID cfg cfg' rfl rfl
  have htelemetry : telemetryGroup kafkaGroupID cfg = telemetryGroup kafkaGroupID cfg' ↔
      ∀ tenantID, tenantAllowed cfg tenantID = tenantAllowed cfg' tenantID := by
    rw [telemetryGroup, telemetryGroup, List.append_cancel_right_eq, groupID_eq_iff ha hb hsha]
  have hcommand : commandGroup kafkaGroupID cfg = commandGroup kafkaGroupID cfg' ↔
      ∀ tenantID, tenantAllowed cfg tenantID = tenantAllowed cfg' tenantID := by
    rw [commandGroup, commandGroup, List.append_cancel_right_eq, groupID_eq_iff ha hb hsha]
  refine ⟨htelemetry, hcommand, fun hgroup go pg world world' msg position position' => ?_,
    fun hgroup go msg => ?_⟩
  · simp only [skips_iff, htelemetry.mp hgroup]
  · simp only [checkCommandMessage, hcommand.mp hgroup]

/-- Blanks, repetitions and the order do not matter; the tenants do. -/
theorem consumer_groups_canonical_reordered :
    tenantSetHash [ascii "tenant-b", ascii "tenant-a", ascii "tenant-a", []] =
        tenantSetHash [ascii "tenant-a", ascii "tenant-b"] ∧
      tenantSetHash [ascii "tenant-a"] ≠ tenantSetHash [ascii "tenant-b"] := by
  have hfree : NulFree [ascii "tenant-b", ascii "tenant-a", ascii "tenant-a", []] ∧
      NulFree [ascii "tenant-a", ascii "tenant-b"] ∧ NulFree [ascii "tenant-a"] ∧
      NulFree [ascii "tenant-b"] := by
    simp only [NulFree, List.forall_mem_cons]
    decide
  obtain ⟨ha, hb, hfirst, hsecond⟩ := hfree
  constructor
  · have hsame : ∀ id,
        id ∈ tenantAllowlist [ascii "tenant-b", ascii "tenant-a", ascii "tenant-a", []] ↔
          id ∈ tenantAllowlist [ascii "tenant-a", ascii "tenant-b"] := by
      intro id
      rw [show tenantAllowlist [ascii "tenant-b", ascii "tenant-a", ascii "tenant-a", []] =
          [ascii "tenant-b", ascii "tenant-a", ascii "tenant-a"] by decide,
        show tenantAllowlist [ascii "tenant-a", ascii "tenant-b"] =
          [ascii "tenant-a", ascii "tenant-b"] by decide]
      generalize ascii "tenant-a" = first
      generalize ascii "tenant-b" = second
      simp only [List.mem_cons, List.not_mem_nil, or_false]
      tauto
    have hencoding := (tenantEncoding_eq_iff ha hb).mpr hsame
    exact (consumer_groups_canonical _ _ ha hb fun _ => hencoding).1.mpr hsame
  · have hdigests : shortHash (tenantEncoding [ascii "tenant-a"]) ≠
        shortHash (tenantEncoding [ascii "tenant-b"]) := by decide +kernel
    intro hhash
    have hsame := (consumer_groups_canonical _ _ hfirst hsecond fun h =>
      absurd h hdigests).1.mp hhash
    exact absurd ((hsame (ascii "tenant-a")).mp (by decide)) (by decide)

end Iot.Worker
