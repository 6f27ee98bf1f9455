import Iot.Execution.Run
import Iot.Json.Numbers
import Iot.Kafka.Topics

/-!
# Reconciliation converges

One topic: altering the drifted entries leaves no drift, touches nothing else and never lowers
`max.message.bytes` (`drifted_alterConfigs`, `find?_alterConfigs`, `raises_alterConfigs`). The loop
over the topics lifts this to the cluster, and a run of reconciliations by several services, any of
which may fail on the way, to every state they reach (`topics_reconcile`).
-/

namespace Iot.Kafka

open Text Json Data Execution

/-! ## Integers -/

/-- `Atoi` reads what `Itoa` writes. -/
theorem atoi_decimal (n : Int64) : atoi (decimal n.toInt) = some n.toInt := by
  have hmin : -9223372036854775808 ≤ n.toInt := n.le_toInt
  have hmax : n.toInt < 9223372036854775808 := n.toInt_lt
  generalize n.toInt = value at hmin hmax
  obtain ⟨hall, c, rest, hcons, _⟩ := digits_eq_cons value.natAbs
  have hvalue := digitsValue_digits value.natAbs
  have hne : digits value.natAbs ≠ [] := by simp [hcons]
  rw [decimal_eq]
  by_cases hneg : value < 0
  · rw [if_pos hneg, List.singleton_append, atoi]
    have hsigned : -(digitsValue (digits value.natAbs) : Int) = value := by omega
    simp only [if_true, hsigned]
    rw [if_pos ⟨hne, hall, hmin, by omega⟩]
  · have hunsigned : (digitsValue (digits value.natAbs) : Int) = value := by omega
    have hdigit : isDigit c := by
      rw [hcons, List.all_cons, Bool.and_eq_true] at hall
      exact hall.1
    -- a digit is not a sign
    have hsign : ∀ sign, isDigit sign = false → ∀ tail, digits value.natAbs ≠ sign :: tail := by
      intro sign hfalse tail htail
      rw [hcons, List.cons.injEq] at htail
      rw [htail.1, hfalse] at hdigit
      cases hdigit
    rw [if_neg hneg, List.nil_append, atoi]
    · simp only [Bool.false_eq_true, if_false, hunsigned]
      rw [if_pos ⟨hne, hall, hmin, by omega⟩]
    · exact hsign 0x2D rfl
    · exact hsign 0x2B rfl

/-! ## One topic -/

/-- The entries that a service manages: one for each name, and the floor is a number. -/
structure Managed (desired : List ConfigEntry) : Prop where
  nodup : (desired.map ConfigEntry.name).Nodup
  floor : ∀ entry ∈ desired, entry.name = maxMessageBytes → (atoi entry.value).isSome

/-- The entries of a configuration are managed. -/
theorem managed_entries (cfg : KafkaTopicConfig) : Managed cfg.entries := by
  have hnames : ascii "min.insync.replicas" ≠ ascii "retention.ms" ∧
      ascii "min.insync.replicas" ≠ maxMessageBytes ∧ ascii "retention.ms" ≠ maxMessageBytes := by
    decide
  constructor
  · unfold KafkaTopicConfig.entries
    split_ifs <;> simp [hnames]
  · intro entry hentry hname
    simp only [KafkaTopicConfig.entries, List.mem_append] at hentry
    rcases hentry with (hentry | hentry) | hentry <;> split_ifs at hentry <;>
      simp only [List.mem_singleton, List.not_mem_nil] at hentry
    · rw [hentry] at hname
      exact absurd hname hnames.2.1
    · rw [hentry] at hname
      exact absurd hname hnames.2.2
    · rw [hentry, atoi_decimal]
      rfl

/-- The floor of a configuration. -/
theorem mem_entries_floor {cfg : KafkaTopicConfig} (h : cfg.minMessageBytes > 0) :
    ⟨maxMessageBytes, decimal cfg.minMessageBytes.toInt⟩ ∈ cfg.entries := by
  simp [KafkaTopicConfig.entries, h]

/-- The map of the live values has the value of the entry of each name. -/
theorem liveValue_rows (live : LiveConfig) (name : Bytes) :
    liveValue live.rows name = (live.find? name).map ConfigEntry.value := by
  rw [liveValue]
  congr 1
  cases hfind : live.rows.reverse.find? fun entry => entry.name = name with
  | none =>
      rw [List.find?_eq_none] at hfind
      rw [Table.find?, eq_comm, List.find?_eq_none]
      exact fun entry hentry => hfind entry (List.mem_reverse.mpr hentry)
  | some entry =>
      have hmem := List.mem_reverse.mp (List.mem_of_find?_eq_some hfind)
      rw [eq_comm, live.find?_eq_some_iff]
      exact ⟨hmem, by simpa using List.find?_some hfind⟩

/-- The description shows the live value of every desired name. -/
theorem liveValue_described {live : LiveConfig} {desired : List ConfigEntry} {entry : ConfigEntry}
    (h : entry ∈ desired) :
    liveValue (described live desired) entry.name = liveValue live.rows entry.name := by
  rw [liveValue, liveValue, described, ← List.filter_reverse, List.find?_filter]
  congr 2
  funext other
  by_cases hname : other.name = entry.name
  · have hmem : (desired.map ConfigEntry.name).contains other.name :=
      List.contains_iff_mem.mpr (List.mem_map.mpr ⟨entry, h, hname.symm⟩)
    simp only [hmem, true_and, decide_eq_true_eq]
  · simp only [hname, decide_false, Bool.false_eq_true, and_false]

/-- The drift seen in the description is the drift of the configuration. -/
theorem drifted_described (live : LiveConfig) (desired : List ConfigEntry) :
    driftedConfigEntries (described live desired) desired =
      driftedConfigEntries live.rows desired := by
  refine List.filter_congr fun entry hentry => ?_
  rw [reaches, reaches, liveValue_described hentry]

/-- Altering the drift changes the drifted entries only. -/
theorem find?_alterConfigs {desired : List ConfigEntry} (h : Managed desired) (live : LiveConfig)
    (name : Bytes) :
    (alterConfigs live (driftedConfigEntries live.rows desired)).find? name =
      ((driftedConfigEntries live.rows desired).find? fun entry => entry.name = name).or
        (live.find? name) :=
  Table.find?_foldl_put _ _ (h.nodup.sublist (List.filter_sublist.map _)) _

/-- A drifted entry is found after the alteration. -/
theorem find?_alterConfigs_drifted {desired : List ConfigEntry} (h : Managed desired)
    {live : LiveConfig} {entry : ConfigEntry}
    (hentry : entry ∈ driftedConfigEntries live.rows desired) :
    (alterConfigs live (driftedConfigEntries live.rows desired)).find? entry.name = some entry := by
  rw [find?_alterConfigs h]
  cases hfind : (driftedConfigEntries live.rows desired).find? fun other =>
      other.name = entry.name with
  | none =>
      rw [List.find?_eq_none] at hfind
      exact absurd (decide_eq_true rfl) (hfind entry hentry)
  | some other =>
      have hother := List.mem_of_find?_eq_some hfind
      have hname : other.name = entry.name := by simpa using List.find?_some hfind
      rw [List.inj_on_of_nodup_map h.nodup (List.mem_of_mem_filter hother)
        (List.mem_of_mem_filter hentry) hname]
      rfl

/-- A name that no drifted entry has keeps its value. -/
theorem find?_alterConfigs_other {desired : List ConfigEntry} (h : Managed desired)
    {live : LiveConfig} {name : Bytes}
    (hname : ∀ entry ∈ driftedConfigEntries live.rows desired, entry.name ≠ name) :
    (alterConfigs live (driftedConfigEntries live.rows desired)).find? name = live.find? name := by
  have hnone : ((driftedConfigEntries live.rows desired).find? fun entry => entry.name = name) =
      none := by
    rw [List.find?_eq_none]
    exact fun entry hentry => by simpa using hname entry hentry
  rw [find?_alterConfigs h, hnone]
  rfl

/-- An entry that has not drifted keeps its value. -/
theorem find?_alterConfigs_kept {desired : List ConfigEntry} (h : Managed desired)
    {live : LiveConfig} {entry : ConfigEntry} (hentry : entry ∈ desired)
    (hkept : entry ∉ driftedConfigEntries live.rows desired) :
    (alterConfigs live (driftedConfigEntries live.rows desired)).find? entry.name =
      live.find? entry.name := by
  refine find?_alterConfigs_other h fun other hother hname => hkept ?_
  rwa [← List.inj_on_of_nodup_map h.nodup (List.mem_of_mem_filter hother) hentry hname]

/-- After the alteration nothing has drifted. -/
theorem drifted_alterConfigs {desired : List ConfigEntry} (h : Managed desired)
    (live : LiveConfig) :
    driftedConfigEntries (alterConfigs live (driftedConfigEntries live.rows desired)).rows desired =
      [] := by
  rw [driftedConfigEntries, List.filter_eq_nil_iff]
  intro entry hentry
  by_cases hdrift : entry ∈ driftedConfigEntries live.rows desired
  · rw [liveValue_rows, find?_alterConfigs_drifted h hdrift]
    simp
  · have hsame : liveValue (alterConfigs live (driftedConfigEntries live.rows desired)).rows
        entry.name = liveValue live.rows entry.name := by
      rw [liveValue_rows, liveValue_rows, find?_alterConfigs_kept h hentry hdrift]
    rw [reaches, hsame, ← reaches]
    intro hagain
    exact hdrift (List.mem_filter.mpr ⟨hentry, hagain⟩)

/-! ## The floor -/

/-- The live `max.message.bytes`, if it is a decimal integer of 64 bits. -/
def LiveConfig.maxBytes (live : LiveConfig) : Option Int :=
  (live.find? maxMessageBytes).bind fun entry => atoi entry.value

/-- The value of the floor as the comparison reads it. A missing value is not a number. -/
theorem atoi_liveValue (live : LiveConfig) :
    atoi ((liveValue live.rows maxMessageBytes).getD []) = live.maxBytes := by
  rw [liveValue_rows, LiveConfig.maxBytes]
  cases live.find? maxMessageBytes with
  | none => rfl
  | some entry => rfl

/-- The second configuration has a limit that is not below that of the first. -/
def Raises (live after : LiveConfig) : Prop :=
  ∀ bytes, live.maxBytes = some bytes → ∃ bytes', after.maxBytes = some bytes' ∧ bytes ≤ bytes'

theorem Raises.refl (live : LiveConfig) : Raises live live := fun bytes h => ⟨bytes, h, le_rfl⟩

theorem Raises.trans {live middle after : LiveConfig} (h : Raises live middle)
    (h' : Raises middle after) : Raises live after := by
  intro bytes hbytes
  obtain ⟨middleBytes, hmiddle, hle⟩ := h bytes hbytes
  obtain ⟨afterBytes, hafter, hle'⟩ := h' middleBytes hmiddle
  exact ⟨afterBytes, hafter, hle.trans hle'⟩

/-- The alteration does not lower the limit: the floor drifts only when it is above it. -/
theorem raises_alterConfigs {desired : List ConfigEntry} (h : Managed desired)
    (live : LiveConfig) :
    Raises live (alterConfigs live (driftedConfigEntries live.rows desired)) := by
  intro bytes hbytes
  by_cases hfloor : ∃ entry ∈ driftedConfigEntries live.rows desired, entry.name = maxMessageBytes
  · obtain ⟨entry, hentry, hname⟩ := hfloor
    have hfind := find?_alterConfigs_drifted h hentry
    obtain ⟨hdesired, hdrift⟩ := List.mem_filter.mp hentry
    obtain ⟨minimum, hminimum⟩ := Option.isSome_iff_exists.mp (h.floor entry hdesired hname)
    rw [hname] at hfind
    refine ⟨minimum, by rw [LiveConfig.maxBytes, hfind]; exact hminimum, ?_⟩
    rw [reaches, hname, atoi_liveValue, hbytes, hminimum] at hdrift
    simp only [beq_self_eq_true, Bool.true_and, Bool.and_eq_true, Bool.not_eq_true',
      decide_eq_false_iff_not] at hdrift
    omega
  · simp only [not_exists, not_and] at hfloor
    refine ⟨bytes, ?_, le_rfl⟩
    rw [LiveConfig.maxBytes, find?_alterConfigs_other h hfloor]
    exact hbytes

/-- A configuration without drift has reached the floor. -/
theorem maxBytes_of_settled {live : LiveConfig} {desired : List ConfigEntry}
    (h : driftedConfigEntries live.rows desired = []) {entry : ConfigEntry}
    (hentry : entry ∈ desired) (hname : entry.name = maxMessageBytes) {minimum : Int}
    (hminimum : atoi entry.value = some minimum) :
    ∃ bytes, live.maxBytes = some bytes ∧ minimum ≤ bytes := by
  rw [driftedConfigEntries, List.filter_eq_nil_iff] at h
  have hcases : reaches live.rows entry ∨ liveValue live.rows entry.name = some entry.value := by
    by_cases hreaches : reaches live.rows entry
    · exact .inl hreaches
    · exact .inr (by simpa [hreaches] using h entry hentry)
  rcases hcases with hreaches | hvalue
  · rw [reaches, hname, atoi_liveValue, hminimum] at hreaches
    cases hbytes : live.maxBytes with
    | none => simp [hbytes] at hreaches
    | some bytes => exact ⟨bytes, rfl, by simpa [hbytes] using hreaches⟩
  · rw [hname, liveValue_rows, Option.map_eq_some_iff] at hvalue
    obtain ⟨other, hfind, hother⟩ := hvalue
    exact ⟨minimum, by rw [LiveConfig.maxBytes, hfind, Option.bind_some, hother, hminimum], le_rfl⟩

/-! ## The cluster -/

/-- A topic of the cluster has no drift. -/
def Settled (desired : List ConfigEntry) (cluster : Cluster) (topic : Bytes) : Prop :=
  ∃ live, cluster.find? topic = some live ∧ driftedConfigEntries live.configs.rows desired = []

/-- What reconciling one topic does. -/
structure TopicStep (desired : List ConfigEntry) (live : LiveConfig) (topic : TopicOutcome) :
    Prop where
  configs : topic.configs = live ∨
    topic.configs = alterConfigs live (driftedConfigEntries live.rows desired)
  settles : topic.error = none → driftedConfigEntries topic.configs.rows desired = []
  idle : driftedConfigEntries live.rows desired = [] → topic.configs = live ∧ topic.altered = []

/-- Reconciling a topic alters the drift or leaves the configuration alone, and has altered it when
it succeeds. -/
theorem topicStep (answers : Answers) (tc : TopicConfig) (h : Managed tc.configEntries)
    (live : LiveTopic) :
    TopicStep tc.configEntries live.configs (reconcileTopic answers tc live) := by
  rw [reconcileTopic]
  cases checkTopic tc live with
  | error err => exact ⟨.inl rfl, fun herror => (by cases herror), fun _ => ⟨rfl, rfl⟩⟩
  | ok _ =>
      dsimp only
      by_cases hempty : tc.configEntries = []
      · rw [if_pos hempty]
        exact ⟨.inl rfl, fun _ => by rw [hempty]; rfl, fun _ => ⟨rfl, rfl⟩⟩
      rw [if_neg hempty]
      cases answers.describe with
      | some failure => exact ⟨.inl rfl, fun herror => (by cases herror), fun _ => ⟨rfl, rfl⟩⟩
      | none =>
          dsimp only
          rw [drifted_described]
          by_cases hdrift : driftedConfigEntries live.configs.rows tc.configEntries = []
          · rw [if_pos hdrift]
            exact ⟨.inl rfl, fun _ => hdrift, fun _ => ⟨rfl, rfl⟩⟩
          rw [if_neg hdrift]
          cases answers.alter with
          | some failure =>
              refine ⟨?_, fun herror => (by cases herror), fun hidle => absurd hidle hdrift⟩
              by_cases happlied : answers.applied
              · exact .inr (if_pos happlied)
              · exact .inl (if_neg happlied)
          | none =>
              exact ⟨.inr rfl, fun _ => drifted_alterConfigs h live.configs,
                fun hidle => absurd hidle hdrift⟩

/-- The cluster after one topic. -/
theorem find?_setConfigs (cluster : Cluster) (configs : LiveConfig) (topic name : Bytes) :
    (cluster.update (fun live => live.name == topic) (LiveTopic.setConfigs configs)
      (LiveTopic.setConfigs_name configs)).find? name =
      (cluster.find? name).map fun live =>
        if name = topic then live.setConfigs configs else live := by
  rw [Table.find?_update]
  cases hfind : cluster.find? name with
  | none => rfl
  | some live =>
      have hname := Table.key_of_find? hfind
      simp [hname]

/-- A relation between configurations that holds when nothing is altered and when the drift is,
and is transitive, holds for every topic from before the loop to after it, however it ends. -/
theorem reconcileFrom_related {desired : List ConfigEntry} (h : Managed desired)
    (related : LiveConfig → LiveConfig → Prop) (hrefl : ∀ live, related live live)
    (htrans : ∀ live middle after, related live middle → related middle after →
      related live after)
    (halter : ∀ live, related live (alterConfigs live (driftedConfigEntries live.rows desired)))
    (answers : Nat → Answers) (i : Nat) (tcs : List TopicConfig)
    (htcs : ∀ tc ∈ tcs, tc.configEntries = desired) (cluster : Cluster) {name : Bytes}
    {live : LiveTopic} (hlive : cluster.find? name = some live) :
    ∃ after, (reconcileFrom answers i tcs cluster).cluster.find? name = some after ∧
      related live.configs after.configs := by
  induction tcs generalizing i cluster live with
  | nil => exact ⟨live, hlive, hrefl _⟩
  | cons tc rest ih =>
      have htc := htcs tc (by simp)
      rw [reconcileFrom]
      cases hfind : cluster.find? tc.topic with
      | none => exact ⟨live, hlive, hrefl _⟩
      | some found =>
          have hstep := topicStep (answers i) tc (htc ▸ h) found
          rw [htc] at hstep
          -- the configuration of this topic after the body of the loop
          obtain ⟨middle, hmiddle, hrelated⟩ : ∃ middle,
              (cluster.update (fun live => live.name == tc.topic)
                (LiveTopic.setConfigs (reconcileTopic (answers i) tc found).configs)
                (LiveTopic.setConfigs_name _)).find? name = some middle ∧
              related live.configs middle.configs := by
            rw [find?_setConfigs, hlive, Option.map_some]
            refine ⟨_, rfl, ?_⟩
            split_ifs with hname
            · subst hname
              cases hlive.symm.trans hfind
              rcases hstep.configs with hsame | haltered
              · rw [LiveTopic.setConfigs, hsame]
                exact hrefl _
              · rw [LiveTopic.setConfigs, haltered]
                exact halter _
            · exact hrefl _
          dsimp only
          cases (reconcileTopic (answers i) tc found).error with
          | some err => exact ⟨middle, hmiddle, hrelated⟩
          | none =>
              obtain ⟨after, hafter, hrelated'⟩ :=
                ih (i + 1) (fun tc htc => htcs tc (by simp [htc])) _ hmiddle
              exact ⟨after, hafter, htrans _ _ _ hrelated hrelated'⟩

/-- A topic without drift has none after the loop, however it ends. -/
theorem Settled.after {desired : List ConfigEntry} (h : Managed desired) {answers : Nat → Answers}
    {i : Nat} {tcs : List TopicConfig} (htcs : ∀ tc ∈ tcs, tc.configEntries = desired)
    {cluster : Cluster} {topic : Bytes} (hsettled : Settled desired cluster topic) :
    Settled desired (reconcileFrom answers i tcs cluster).cluster topic := by
  obtain ⟨live, hlive, hdrift⟩ := hsettled
  obtain ⟨after, hafter, hkept⟩ := reconcileFrom_related h
    (fun live after => driftedConfigEntries live.rows desired = [] →
      driftedConfigEntries after.rows desired = [])
    (fun _ hdrift => hdrift) (fun _ _ _ hfirst hsecond hdrift => hsecond (hfirst hdrift))
    (fun live _ => drifted_alterConfigs h live) answers i tcs htcs cluster hlive
  exact ⟨after, hafter, hkept hdrift⟩

/-- When the loop succeeds no topic it was given has drifted. -/
theorem reconcileFrom_settles {desired : List ConfigEntry} (h : Managed desired)
    {answers : Nat → Answers} {i : Nat} {tcs : List TopicConfig}
    (htcs : ∀ tc ∈ tcs, tc.configEntries = desired) {cluster : Cluster}
    (hsuccess : (reconcileFrom answers i tcs cluster).error = none) :
    ∀ tc ∈ tcs, Settled desired (reconcileFrom answers i tcs cluster).cluster tc.topic := by
  induction tcs generalizing i cluster with
  | nil => simp
  | cons tc rest ih =>
      have htc := htcs tc (by simp)
      have hrest : ∀ tc ∈ rest, tc.configEntries = desired := fun tc htc => htcs tc (by simp [htc])
      rw [reconcileFrom] at hsuccess ⊢
      cases hfind : cluster.find? tc.topic with
      | none => simp [hfind] at hsuccess
      | some live =>
          have hstep := topicStep (answers i) tc (htc ▸ h) live
          rw [htc] at hstep
          simp only [hfind] at hsuccess ⊢
          cases herror : (reconcileTopic (answers i) tc live).error with
          | some err => simp [herror] at hsuccess
          | none =>
              simp only [herror] at hsuccess ⊢
              intro other hother
              rcases List.mem_cons.mp hother with rfl | hother
              · refine Settled.after h hrest ⟨live.setConfigs _, ?_, hstep.settles herror⟩
                rw [find?_setConfigs, hfind, Option.map_some, if_pos rfl]
              · exact ih hrest hsuccess other hother

/-- Where nothing has drifted the loop alters nothing. -/
theorem reconcileFrom_idle {desired : List ConfigEntry} (h : Managed desired)
    {answers : Nat → Answers} {i : Nat} {tcs : List TopicConfig}
    (htcs : ∀ tc ∈ tcs, tc.configEntries = desired) {cluster : Cluster}
    (hsettled : ∀ tc ∈ tcs, Settled desired cluster tc.topic) :
    (reconcileFrom answers i tcs cluster).alterations = [] ∧
      (reconcileFrom answers i tcs cluster).cluster = cluster := by
  induction tcs generalizing i with
  | nil => exact ⟨rfl, rfl⟩
  | cons tc rest ih =>
      have htc := htcs tc (by simp)
      obtain ⟨live, hlive, hdrift⟩ := hsettled tc (by simp)
      have hstep := topicStep (answers i) tc (htc ▸ h) live
      rw [htc] at hstep
      obtain ⟨hconfigs, haltered⟩ := hstep.idle hdrift
      -- the row is written back as it was
      have hcluster : cluster.update (fun live => live.name == tc.topic)
          (LiveTopic.setConfigs live.configs) (LiveTopic.setConfigs_name live.configs) =
            cluster := by
        refine Table.update_eq_of_fixed _ _ _ _ fun other hother hname => ?_
        have hmem := (cluster.find?_eq_some_iff tc.topic live).mp hlive
        have hname : other.name = tc.topic := by simpa using hname
        rw [cluster.eq_of_key hother hmem.1 (hname.trans hmem.2.symm)]
        rfl
      obtain ⟨halterations, hsame⟩ := @ih (i + 1) (fun tc htc => htcs tc (by simp [htc]))
        fun tc htc => hsettled tc (by simp [htc])
      rw [reconcileFrom, hlive]
      simp only [hconfigs, haltered, if_true, hcluster]
      cases (reconcileTopic (answers i) tc live).error with
      | some err => exact ⟨rfl, rfl⟩
      | none => exact ⟨by simpa using halterations, hsame⟩

/-! ## Runs of several services -/

/-- One reconciliation by a service with its configuration and topics. -/
structure Reconcile where
  cfg : KafkaTopicConfig
  topics : List Bytes
  metadata : Option GoError
  answers : Nat → Answers

/-- The end of a reconciliation. -/
def Reconcile.outcome (service : Reconcile) (cluster : Cluster) : Outcome :=
  reconcileKafkaTopicsWithClient service.metadata service.answers
    (buildTopicConfigs service.topics service.cfg) cluster

/-- The cluster after a reconciliation, also after one that failed. -/
def reconcileStep (cluster : Cluster) (service : Reconcile) : Cluster :=
  (service.outcome cluster).cluster

/-- The topics of a service share their entries. -/
theorem entries_of_mem_build {topics : List Bytes} {cfg : KafkaTopicConfig} {tc : TopicConfig}
    (h : tc ∈ buildTopicConfigs topics cfg) : tc.configEntries = cfg.normalized.entries := by
  obtain ⟨topic, _, rfl⟩ := List.mem_map.mp h
  rfl

/-- No reconciliation lowers the limit of a topic, however it ends. -/
theorem reconcileStep_raises (cluster : Cluster) (service : Reconcile) {topic : Bytes}
    {live : LiveTopic} (h : cluster.find? topic = some live) :
    ∃ after, (reconcileStep cluster service).find? topic = some after ∧
      Raises live.configs after.configs := by
  unfold reconcileStep Reconcile.outcome reconcileKafkaTopicsWithClient
  cases service.metadata with
  | some err => exact ⟨live, h, .refl _⟩
  | none =>
      have hmanaged := managed_entries service.cfg.normalized
      exact reconcileFrom_related hmanaged Raises Raises.refl (fun _ _ _ => Raises.trans)
        (raises_alterConfigs hmanaged) _ _ _ (fun tc => entries_of_mem_build) cluster h

/-- No run of reconciliations lowers the limit of a topic. -/
theorem run_raises (services : List Reconcile) {cluster : Cluster} {topic : Bytes}
    {live : LiveTopic} (h : cluster.find? topic = some live) :
    ∃ after, (run reconcileStep cluster services).find? topic = some after ∧
      Raises live.configs after.configs := by
  induction services generalizing cluster live with
  | nil => exact ⟨live, h, .refl _⟩
  | cons service rest ih =>
      obtain ⟨middle, hmiddle, hraises⟩ := reconcileStep_raises cluster service h
      obtain ⟨after, hafter, hraises'⟩ := ih hmiddle
      exact ⟨after, hafter, hraises.trans hraises'⟩

/-- When a reconciliation succeeds no topic of the service has drifted. -/
theorem outcome_settles {service : Reconcile} {cluster : Cluster}
    (h : (service.outcome cluster).error = none) :
    ∀ tc ∈ buildTopicConfigs service.topics service.cfg,
      Settled service.cfg.normalized.entries (service.outcome cluster).cluster tc.topic := by
  unfold Reconcile.outcome reconcileKafkaTopicsWithClient at h ⊢
  cases hmetadata : service.metadata with
  | some err => simp [hmetadata] at h
  | none =>
      simp only [hmetadata] at h ⊢
      exact reconcileFrom_settles (managed_entries _) (fun tc => entries_of_mem_build) h

/-- A reconciliation that succeeded brings the limit of its topics to its minimum. -/
theorem outcome_reaches {service : Reconcile} {cluster : Cluster}
    (h : (service.outcome cluster).error = none) {topic : Bytes} (htopic : topic ∈ service.topics)
    (hname : topic ≠ []) (hminimum : service.cfg.minMessageBytes > 0) :
    ∃ live bytes, (reconcileStep cluster service).find? topic = some live ∧
      live.configs.maxBytes = some bytes ∧ service.cfg.minMessageBytes.toInt ≤ bytes := by
  have hmem : (⟨topic, service.cfg.normalized.numPartitions,
      service.cfg.normalized.replicationFactor, service.cfg.normalized.entries⟩ : TopicConfig) ∈
      buildTopicConfigs service.topics service.cfg :=
    List.mem_map.mpr ⟨topic, List.mem_filter.mpr ⟨htopic, decide_eq_true hname⟩, rfl⟩
  obtain ⟨live, hlive, hdrift⟩ := outcome_settles h _ hmem
  obtain ⟨bytes, hbytes, hle⟩ := maxBytes_of_settled hdrift
    (mem_entries_floor (show service.cfg.normalized.minMessageBytes > 0 from hminimum)) rfl
    (atoi_decimal _)
  exact ⟨live, bytes, hlive, hbytes, hle⟩

/-- For every configuration and topics. One topic: altering its drift leaves no drift, gives every
entry that has drifted its desired value, keeps every entry that is not desired or has not drifted,
and does not lower `max.message.bytes` where that is an integer of 64 bits. The cluster: after a
reconciliation that succeeds, a second one alters nothing. Services that reconcile with different
configurations, in any order and some of them failing: the limit of a topic only grows, and at the
end it is at least the minimum of each service that succeeded. -/
theorem topics_reconcile (cfg : KafkaTopicConfig) (topics : List Bytes) :
    (∀ tc ∈ buildTopicConfigs topics cfg, ∀ live : LiveConfig,
      let drift := driftedConfigEntries live.rows tc.configEntries
      let after := alterConfigs live drift
      driftedConfigEntries after.rows tc.configEntries = [] ∧
      (∀ entry ∈ drift, after.find? entry.name = some entry) ∧
      (∀ name, name ∉ tc.configEntries.map ConfigEntry.name →
        after.find? name = live.find? name) ∧
      (∀ entry ∈ tc.configEntries, entry ∉ drift →
        after.find? entry.name = live.find? entry.name) ∧
      ∀ bytes, live.maxBytes = some bytes → ∃ bytes', after.maxBytes = some bytes' ∧
        bytes ≤ bytes') ∧
    (∀ (metadata metadata' : Option GoError) (answers answers' : Nat → Answers)
      (cluster : Cluster),
      let first := (Reconcile.mk cfg topics metadata answers).outcome cluster
      let second := (Reconcile.mk cfg topics metadata' answers').outcome first.cluster
      first.error = none → second.alterations = [] ∧ second.cluster = first.cluster) ∧
    ∀ (cluster : Cluster) (before later : List Reconcile) (metadata : Option GoError)
      (answers : Nat → Answers),
      let service := Reconcile.mk cfg topics metadata answers
      let after := run reconcileStep cluster (before ++ service :: later)
      (∀ topic live bytes, cluster.find? topic = some live → live.configs.maxBytes = some bytes →
        ∃ live' bytes', after.find? topic = some live' ∧
          live'.configs.maxBytes = some bytes' ∧ bytes ≤ bytes') ∧
      ((service.outcome (run reconcileStep cluster before)).error = none →
        ∀ topic ∈ topics, topic ≠ [] → cfg.minMessageBytes > 0 →
          ∃ live bytes, after.find? topic = some live ∧ live.configs.maxBytes = some bytes ∧
            cfg.minMessageBytes.toInt ≤ bytes) := by
  refine ⟨?_, ?_, ?_⟩
  · intro tc htc live
    have hmanaged : Managed tc.configEntries := by
      rw [entries_of_mem_build htc]
      exact managed_entries _
    refine ⟨drifted_alterConfigs hmanaged live,
      fun entry hentry => find?_alterConfigs_drifted hmanaged hentry, fun name hname => ?_,
      fun entry hentry hkept => find?_alterConfigs_kept hmanaged hentry hkept,
      raises_alterConfigs hmanaged live⟩
    refine find?_alterConfigs_other hmanaged fun entry hentry heq => hname ?_
    exact List.mem_map.mpr ⟨entry, List.mem_of_mem_filter hentry, heq⟩
  · intro metadata metadata' answers answers' cluster first second hfirst
    have hsettled := outcome_settles hfirst
    cases metadata' with
    | some err => exact ⟨rfl, rfl⟩
    | none =>
        exact reconcileFrom_idle (managed_entries _) (fun tc => entries_of_mem_build) hsettled
  · intro cluster before later metadata answers service after
    constructor
    · intro topic live bytes hlive hbytes
      obtain ⟨live', hlive', hraises⟩ := run_raises (before ++ service :: later) hlive
      obtain ⟨bytes', hbytes', hle⟩ := hraises bytes hbytes
      exact ⟨live', bytes', hlive', hbytes', hle⟩
    · intro hsuccess topic htopic hname hminimum
      obtain ⟨live, bytes, hlive, hbytes, hle⟩ := outcome_reaches hsuccess htopic hname hminimum
      obtain ⟨live', hlive', hraises⟩ := run_raises later hlive
      obtain ⟨bytes', hbytes', hle'⟩ := hraises bytes hbytes
      refine ⟨live', bytes', ?_, hbytes', hle.trans hle'⟩
      rw [show after = _ from Execution.run_append _ _ _ _]
      exact hlive'

/-- A topic with a limit of one MiB. -/
def smallTopic : LiveTopic :=
  ⟨ascii "dlq", none, [⟨none, 1⟩], ⟨[⟨maxMessageBytes, ascii "1048576"⟩], by decide⟩⟩

/-- A service that needs two MiB, with a broker that answers every request. -/
def needsTwo : Reconcile :=
  ⟨⟨1, 1, 1, 0, 2097152⟩, [ascii "dlq"], none, fun _ => ⟨none, none, true, none⟩⟩

theorem topics_reconcile_small :
    (needsTwo.outcome ⟨[smallTopic], by decide⟩).error = none ∧
      ∃ live bytes, (run reconcileStep ⟨[smallTopic], by decide⟩ [needsTwo]).find? (ascii "dlq") =
        some live ∧ live.configs.maxBytes = some bytes ∧ 2097152 ≤ bytes := by
  have hsuccess : (needsTwo.outcome ⟨[smallTopic], by decide⟩).error = none := by decide +kernel
  exact ⟨hsuccess, ((topics_reconcile needsTwo.cfg needsTwo.topics).2.2 ⟨[smallTopic], by decide⟩
    [] [] none needsTwo.answers).2 hsuccess (ascii "dlq") (by decide) (by decide) (by decide)⟩

end Iot.Kafka
