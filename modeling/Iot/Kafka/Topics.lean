import Iot.Contracts.Errors
import Iot.Data.Table

/-!
# Kafka topics

The desired configuration of the topics (`buildTopicConfigs`), the comparison with a live one
(`driftedConfigEntries`) and `reconcileKafkaTopicsWithClient`, which alters what differs
(`kafka_topics.go`). The cluster is a table of topics. What a broker answers beyond its state is an
argument: each request may fail, and an alteration that is reported as failed may have been made.
-/

namespace Iot.Kafka

open Text Data

/-! ## Desired configuration -/

/-- `KafkaTopicConfig` without the timeout of the setup. -/
structure KafkaTopicConfig where
  replicationFactor : Int64
  minInsyncReplicas : Int64
  numPartitions : Int64
  retentionMs : Int64
  minMessageBytes : Int64
  deriving DecidableEq

/-- `normalized`. -/
def KafkaTopicConfig.normalized (cfg : KafkaTopicConfig) : KafkaTopicConfig :=
  { cfg with
    replicationFactor := if cfg.replicationFactor ≤ 0 then 1 else cfg.replicationFactor
    minInsyncReplicas := if cfg.minInsyncReplicas ≤ 0 then 1 else cfg.minInsyncReplicas
    numPartitions := if cfg.numPartitions ≤ 0 then 1 else cfg.numPartitions }

/-- A `kafka.ConfigEntry`. -/
structure ConfigEntry where
  name : Bytes
  value : Bytes
  deriving DecidableEq, Repr

/-- A `kafka.TopicConfig`. -/
structure TopicConfig where
  topic : Bytes
  numPartitions : Int64
  replicationFactor : Int64
  configEntries : List ConfigEntry
  deriving DecidableEq

/-- The name of the entry that is a floor. -/
def maxMessageBytes : Bytes := ascii "max.message.bytes"

/-- The entries of every topic. More in-sync replicas than replicas are not asked for. -/
def KafkaTopicConfig.entries (cfg : KafkaTopicConfig) : List ConfigEntry :=
  (if cfg.minInsyncReplicas > cfg.replicationFactor then []
    else [⟨ascii "min.insync.replicas", decimal cfg.minInsyncReplicas.toInt⟩]) ++
  (if cfg.retentionMs > 0 then [⟨ascii "retention.ms", decimal cfg.retentionMs.toInt⟩] else []) ++
  (if cfg.minMessageBytes > 0 then [⟨maxMessageBytes, decimal cfg.minMessageBytes.toInt⟩] else [])

/-- `buildTopicConfigs`. -/
def buildTopicConfigs (topics : List Bytes) (cfg : KafkaTopicConfig) : List TopicConfig :=
  let cfg := cfg.normalized
  (topics.filter fun topic => topic ≠ []).map fun topic =>
    ⟨topic, cfg.numPartitions, cfg.replicationFactor, cfg.entries⟩

/-! ## Drift -/

/-- The map of the live values: a later entry replaces an earlier one of its name. -/
def liveValue (live : List ConfigEntry) (name : Bytes) : Option Bytes :=
  (live.reverse.find? fun entry => entry.name = name).map ConfigEntry.value

/-- The entry is a floor that the live value reaches. A missing value is the empty text. -/
def reaches (live : List ConfigEntry) (entry : ConfigEntry) : Bool :=
  entry.name == maxMessageBytes &&
    match atoi ((liveValue live entry.name).getD []), atoi entry.value with
    | some current, some minimum => current ≥ minimum
    | _, _ => false

/-- `driftedConfigEntries`. -/
def driftedConfigEntries (live desired : List ConfigEntry) : List ConfigEntry :=
  desired.filter fun entry => !reaches live entry && liveValue live entry.name != some entry.value

/-! ## The cluster -/

/-- The live configuration of a topic. -/
abbrev LiveConfig := Table ConfigEntry.name

/-- A partition in the metadata. -/
structure Partition where
  error : Option GoError
  replicas : Nat

/-- A topic of the cluster: its metadata and its configuration. -/
structure LiveTopic where
  name : Bytes
  error : Option GoError
  partitions : List Partition
  configs : LiveConfig

/-- The topics. -/
abbrev Cluster := Table LiveTopic.name

/-- How a request about one topic may end besides success: the request fails, the response has not
one resource, or the resource has an error. -/
inductive Failure where
  | request (err : GoError)
  | missing
  | resource (err : GoError)

/-- What the broker answers while one topic is reconciled. An alteration that fails may have been
`applied`. -/
structure Answers where
  describe : Option Failure
  alter : Option Failure
  applied : Bool
  visible : Option Failure

/-- `fmt.Errorf("kafka topic %s…", topic)`. -/
def topicError (topic : Bytes) (text : Bytes) : GoError :=
  ⟨ascii "kafka topic " ++ topic ++ text, []⟩

/-- The same with `: %w` at the end. -/
def wrapTopic (topic : Bytes) (text : String) (err : GoError) : GoError :=
  ⟨ascii "kafka topic " ++ topic ++ ascii text ++ ascii ": " ++ err.text, err.wraps⟩

/-- The error of the first `DescribeConfigs`. -/
def describeError (topic : Bytes) : Failure → GoError
  | .request err => err
  | .missing => topicError topic (ascii ": missing config response")
  | .resource err => wrapTopic topic ": describe configs" err

/-- The error of `IncrementalAlterConfigs`. -/
def alterError (topic : Bytes) : Failure → GoError
  | .request err => err
  | .missing => topicError topic (ascii ": missing incremental config response")
  | .resource err => wrapTopic topic ": incremental alter configs" err

/-- The error of `waitForKafkaConfigVisibility`, also when the context ends first. -/
def visibleError (topic : Bytes) : Failure → GoError
  | .request err => wrapTopic topic ": waiting for config visibility" err
  | .missing => topicError topic (ascii ": missing config response")
  | .resource err => wrapTopic topic ": describe configs" err

/-- The text of a number that an operator has to change. -/
def countText (what : String) (actual desired : Int) : Bytes :=
  ascii what ++ decimal actual ++ ascii ", desired " ++ decimal desired ++
    ascii "; operational change required"

/-- The checks on the metadata of a topic. -/
def checkTopic (tc : TopicConfig) (live : LiveTopic) : Except GoError Unit := do
  match live.error with
  | some err => throw (wrapTopic tc.topic ": metadata" err)
  | none => pure ()
  returnIf ((live.partitions.length : Int) ≠ tc.numPartitions.toInt)
    (topicError tc.topic
      (countText ": partition count is " live.partitions.length tc.numPartitions.toInt))
  live.partitions.forM fun partition => do
    match partition.error with
    | some err => throw (wrapTopic tc.topic " partition metadata" err)
    | none => pure ()
    returnIf ((partition.replicas : Int) ≠ tc.replicationFactor.toInt)
      (topicError tc.topic
        (countText ": replication factor is " partition.replicas tc.replicationFactor.toInt))

/-- The end of reconciling one topic: the error, the configuration and the entries that were sent
to be altered. -/
structure TopicOutcome where
  error : Option GoError
  configs : LiveConfig
  altered : List ConfigEntry

/-- The entries of a topic that the description of the desired ones returns. -/
def described (live : LiveConfig) (desired : List ConfigEntry) : List ConfigEntry :=
  live.rows.filter fun entry => (desired.map ConfigEntry.name).contains entry.name

/-- Incremental `SET` of entries; every other entry stays. -/
def alterConfigs (live : LiveConfig) (entries : List ConfigEntry) : LiveConfig :=
  entries.foldl Table.put live

/-- The body of the loop of `reconcileKafkaTopicsWithClient`. -/
def reconcileTopic (answers : Answers) (tc : TopicConfig) (live : LiveTopic) : TopicOutcome :=
  match checkTopic tc live with
  | .error err => ⟨some err, live.configs, []⟩
  | .ok () =>
      if tc.configEntries = [] then ⟨none, live.configs, []⟩
      else
        match answers.describe with
        | some failure => ⟨some (describeError tc.topic failure), live.configs, []⟩
        | none =>
            let drift :=
              driftedConfigEntries (described live.configs tc.configEntries) tc.configEntries
            if drift = [] then ⟨none, live.configs, []⟩
            else
              let altered := alterConfigs live.configs drift
              match answers.alter with
              | some failure =>
                  ⟨some (alterError tc.topic failure),
                    if answers.applied then altered else live.configs, drift⟩
              | none => ⟨answers.visible.map (visibleError tc.topic), altered, drift⟩

/-- A topic with another configuration. -/
def LiveTopic.setConfigs (configs : LiveConfig) (live : LiveTopic) : LiveTopic :=
  { live with configs := configs }

@[simp] theorem LiveTopic.setConfigs_name (configs : LiveConfig) (live : LiveTopic) :
    (live.setConfigs configs).name = live.name := rfl

/-- The end of a reconciliation: the error, the cluster and the alterations that were requested. -/
structure Outcome where
  error : Option GoError
  cluster : Cluster
  alterations : List (Bytes × List ConfigEntry)

/-- The loop over the topics, from the one with index `i` on. -/
def reconcileFrom (answers : Nat → Answers) : Nat → List TopicConfig → Cluster → Outcome
  | _, [], cluster => ⟨none, cluster, []⟩
  | i, tc :: rest, cluster =>
      match cluster.find? tc.topic with
      | none => ⟨some (topicError tc.topic (ascii ": missing metadata")), cluster, []⟩
      | some live =>
          let topic := reconcileTopic (answers i) tc live
          let cluster := cluster.update (fun live => live.name == tc.topic)
            (LiveTopic.setConfigs topic.configs) (LiveTopic.setConfigs_name topic.configs)
          let alterations := if topic.altered = [] then [] else [(tc.topic, topic.altered)]
          match topic.error with
          | some err => ⟨some err, cluster, alterations⟩
          | none =>
              let later := reconcileFrom answers (i + 1) rest cluster
              ⟨later.error, later.cluster, alterations ++ later.alterations⟩

/-- `reconcileKafkaTopicsWithClient`. -/
def reconcileKafkaTopicsWithClient (metadata : Option GoError) (answers : Nat → Answers)
    (desired : List TopicConfig) (cluster : Cluster) : Outcome :=
  match metadata with
  | some err => ⟨some err, cluster, []⟩
  | none => reconcileFrom answers 0 desired cluster

end Iot.Kafka
