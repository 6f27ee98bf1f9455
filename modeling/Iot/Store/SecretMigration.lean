import Iot.Data.Table
import Iot.Platform.Bcrypt
import Iot.Store.DeviceState

/-!
# Migration of device secrets

Older installations kept device secrets in a column of `devices`. `migrateLegacyDeviceSecrets`
(`internal/platform/postgres_store.go`) replaces each by its hash, in the transaction of the schema
migration: it reads the credentials first, and then updates the devices one by one. A device that
has a hash already keeps it if it passes `validBcryptEncoding`.

`legacy_hashes_canonical` says when what is left are canonical encodings: exactly if no device with
a secret has a hash whose cost is written with a plus sign.
-/

namespace Iot.Store

open Text Contracts Data Platform

/-- A row of `devices` with the columns of the migration. -/
structure LegacyDevice where
  tenantID : Bytes
  deviceID : Bytes
  secret : Option Bytes
  secretHash : Option Bytes
  deriving DecidableEq, Repr

/-- The primary key of `devices`. -/
def legacyKey (device : LegacyDevice) : Bytes × Bytes := (device.tenantID, device.deviceID)

/-- The table, and whether it has the column `secret`. -/
structure LegacyDb where
  legacy : Bool
  devices : Table legacyKey

/-- `HashDeviceSecret`. `generate` is `bcrypt.GenerateFromPassword` with the default cost. -/
def hashDeviceSecret (generate : Bytes → Except GoError Bytes) (secret : Bytes) :
    Except GoError Bytes := do
  validateDeviceSecret secret
  generate secret

/-- A row of the query: `COALESCE(secret_hash,'')` is the hash. -/
structure Credential where
  tenant : Bytes
  device : Bytes
  secret : Bytes
  hash : Bytes
  deriving DecidableEq, Repr

/-- The key of the device that a credential belongs to. -/
def Credential.key (c : Credential) : Bytes × Bytes := (c.tenant, c.device)

/-- The credential of a device, if it has a secret. -/
def LegacyDevice.credential? (device : LegacyDevice) : Option Credential :=
  device.secret.map fun secret =>
    ⟨device.tenantID, device.deviceID, secret, device.secretHash.getD []⟩

/-- The errors of the database, if any: of the query for the column, of the query for the
credentials, and of the update of a device. -/
structure MigrationFaults where
  columns : Option GoError
  credentials : Option GoError
  update : Bytes × Bytes → Option GoError

/-- `if err != nil { return err }`. -/
def failWith (fault : Option GoError) : Except GoError Unit :=
  match fault with
  | some err => .error err
  | none => .ok ()

/-- The hash that a device gets. `generate` has the salts drawn for each device. -/
def migratedHash (generate : Bytes × Bytes → Bytes → Except GoError Bytes) (c : Credential) :
    Except GoError Bytes :=
  if c.hash = [] then
    match hashDeviceSecret (generate c.key) c.secret with
    | .error err => .error (.join (.new "legacy device credential is invalid") err)
    | .ok hash => .ok hash
  else if !validBcryptEncoding c.hash then
    .error (.new "legacy device hash is invalid; migration rolled back")
  else .ok c.hash

/-- A device with its hash and without its secret. -/
def LegacyDevice.migrated (hash : Bytes) (device : LegacyDevice) : LegacyDevice :=
  { device with secretHash := some hash, secret := none }

theorem legacyKey_migrated (hash : Bytes) (device : LegacyDevice) :
    legacyKey (device.migrated hash) = legacyKey device := rfl

/-- `UPDATE devices SET secret_hash=$1,secret=NULL WHERE tenant_id=$2 AND device_id=$3`. -/
def updateDevice (devices : Table legacyKey) (key : Bytes × Bytes) (hash : Bytes) :
    Table legacyKey :=
  devices.update (fun device => legacyKey device = key) (LegacyDevice.migrated hash)
    (legacyKey_migrated hash)

/-- The loop over the credentials. -/
def migrateCredentials (generate : Bytes × Bytes → Bytes → Except GoError Bytes)
    (faults : MigrationFaults) : List Credential → Table legacyKey →
      Except GoError (Table legacyKey)
  | [], devices => .ok devices
  | c :: rest, devices => do
      let hash ← migratedHash generate c
      failWith (faults.update c.key)
      migrateCredentials generate faults rest (updateDevice devices c.key hash)

/-- `migrateLegacyDeviceSecrets`: the database that the transaction then commits. -/
def migrateLegacyDeviceSecrets (generate : Bytes × Bytes → Bytes → Except GoError Bytes)
    (faults : MigrationFaults) (db : LegacyDb) : Except GoError LegacyDb := do
  failWith faults.columns
  if !db.legacy then pure db
  else
    failWith faults.credentials
    let devices ← migrateCredentials generate faults
      (db.devices.rows.filterMap LegacyDevice.credential?) db.devices
    pure { db with devices := devices }

/-! ## The loop -/

section

variable {generate : Bytes × Bytes → Bytes → Except GoError Bytes} {faults : MigrationFaults}

/-- The hash of a device is new, or it is the one it had. -/
theorem migratedHash_cases {c : Credential} {hash : Bytes}
    (h : migratedHash generate c = .ok hash) :
    c.hash = [] ∧ hashDeviceSecret (generate c.key) c.secret = .ok hash ∨
      c.hash = hash ∧ hash ≠ [] ∧ validBcryptEncoding hash = true := by
  rw [migratedHash] at h
  split_ifs at h with hempty hvalid
  · left
    cases hnew : hashDeviceSecret (generate c.key) c.secret with
    | error err => rw [hnew] at h; cases h
    | ok new => rw [hnew] at h; cases h; exact ⟨hempty, rfl⟩
  · right
    cases h
    exact ⟨rfl, hempty, by simpa using hvalid⟩

/-- An update changes the device with the key. -/
theorem find?_updateDevice (devices : Table legacyKey) (key k : Bytes × Bytes) (hash : Bytes) :
    (updateDevice devices key hash).find? k =
      if k = key then (devices.find? k).map (LegacyDevice.migrated hash) else devices.find? k := by
  rw [updateDevice, Table.find?_update]
  cases hfind : devices.find? k with
  | none => simp
  | some device =>
      have hkey := Table.key_of_find? hfind
      subst hkey
      by_cases hk : legacyKey device = key <;> simp [hk]

/-- A device without a credential stays as it is. -/
theorem migrateCredentials_other {credentials : List Credential} {devices after : Table legacyKey}
    (h : migrateCredentials generate faults credentials devices = .ok after) {k : Bytes × Bytes}
    (hk : ∀ c ∈ credentials, c.key ≠ k) : after.find? k = devices.find? k := by
  induction credentials generalizing devices with
  | nil => cases h; rfl
  | cons c rest ih =>
      simp only [migrateCredentials, bind_eq_ok] at h
      obtain ⟨hash, -, -, -, hrest⟩ := h
      rw [ih hrest fun c' hc' => hk c' (by simp [hc']), find?_updateDevice,
        if_neg fun heq => hk c (by simp) heq.symm]

/-- A device with a credential gets its hash. The keys of the credentials are those of different
devices, so none is updated twice. -/
theorem migrateCredentials_migrated {credentials : List Credential}
    {devices after : Table legacyKey}
    (h : migrateCredentials generate faults credentials devices = .ok after)
    (hnodup : (credentials.map Credential.key).Nodup) {c : Credential} (hc : c ∈ credentials) :
    ∃ hash, migratedHash generate c = .ok hash ∧
      after.find? c.key = (devices.find? c.key).map (LegacyDevice.migrated hash) := by
  induction credentials generalizing devices with
  | nil => cases hc
  | cons first rest ih =>
      simp only [migrateCredentials, bind_eq_ok] at h
      obtain ⟨hash, hhash, -, -, hrest⟩ := h
      rw [List.map_cons, List.nodup_cons] at hnodup
      have hother : ∀ c' ∈ rest, c'.key ≠ first.key := fun c' hc' heq =>
        hnodup.1 (heq ▸ List.mem_map_of_mem hc')
      obtain rfl | hc := List.mem_cons.mp hc
      · refine ⟨hash, hhash, ?_⟩
        rw [migrateCredentials_other hrest hother, find?_updateDevice, if_pos rfl]
      · obtain ⟨hash', hhash', hafter⟩ := ih hrest hnodup.2 hc
        rw [find?_updateDevice, if_neg (hother c hc)] at hafter
        exact ⟨hash', hhash', hafter⟩

/-- The credentials of a table have different keys. -/
theorem nodup_credentials (devices : Table legacyKey) :
    ((devices.rows.filterMap LegacyDevice.credential?).map Credential.key).Nodup := by
  have hsublist : ∀ rows : List LegacyDevice,
      ((rows.filterMap LegacyDevice.credential?).map Credential.key).Sublist
        (rows.map legacyKey) := by
    intro rows
    induction rows with
    | nil => exact .slnil
    | cons device rest ih =>
        cases hsecret : device.secret with
        | none =>
            rw [List.filterMap_cons_none (by simp [LegacyDevice.credential?, hsecret])]
            exact ih.cons _
        | some secret =>
            rw [List.filterMap_cons_some (by rw [LegacyDevice.credential?, hsecret]; rfl)]
            exact ih.cons_cons _
  exact devices.nodup.sublist (hsublist devices.rows)

/-- What the migration leaves: the hash of every device that had a secret, and no secret. -/
theorem migrate_row {db after : LegacyDb}
    (h : migrateLegacyDeviceSecrets generate faults db = .ok after) (hlegacy : db.legacy)
    {device : LegacyDevice} (hdevice : device ∈ db.devices.rows) {secret : Bytes}
    (hsecret : device.secret = some secret) :
    ∃ hash, migratedHash generate
        ⟨device.tenantID, device.deviceID, secret, device.secretHash.getD []⟩ = .ok hash ∧
      after.devices.find? (legacyKey device) = some (device.migrated hash) := by
  simp only [migrateLegacyDeviceSecrets, hlegacy, Bool.not_true, Bool.false_eq_true, if_false,
    bind_eq_ok] at h
  obtain ⟨-, -, -, -, devices, hloop, heq⟩ := h
  cases heq
  have hmem : (⟨device.tenantID, device.deviceID, secret, device.secretHash.getD []⟩ : Credential) ∈
      db.devices.rows.filterMap LegacyDevice.credential? :=
    List.mem_filterMap.mpr ⟨device, hdevice, by rw [LegacyDevice.credential?, hsecret]; rfl⟩
  obtain ⟨hash, hhash, hafter⟩ :=
    migrateCredentials_migrated hloop (nodup_credentials db.devices) hmem
  have hfind := (db.devices.find?_eq_some_iff (legacyKey device) device).mpr ⟨hdevice, rfl⟩
  refine ⟨hash, hhash, ?_⟩
  rw [show devices.find? (legacyKey device) = _ from hafter]
  exact congrArg _ hfind

end

/-- A text with a plus sign is not empty. -/
theorem signed_ne_nil {hash : Bytes} (h : SignedBcrypt hash) : hash ≠ [] := by
  rintro rfl
  obtain ⟨digit, -, -, version, -, salt, digest, -, -, heq⟩ := h
  simp at heq

/-- A hash is accepted exactly if it is the canonical encoding, unless its cost is written with a
plus sign. After a migration the devices that had a secret have none, and a canonical hash or one
from `HashDeviceSecret`, exactly if no such device had a hash of that kind. The hashes of bcrypt
itself have none. -/
theorem legacy_hashes_canonical (generate : Bytes × Bytes → Bytes → Except GoError Bytes)
    (hgenerate : ∀ key secret hash, generate key secret = .ok hash → ¬ SignedBcrypt hash) :
    (∀ hash, (validBcryptEncoding hash = true ↔ CanonicalBcrypt hash) ↔ ¬ SignedBcrypt hash) ∧
    ∀ (faults : MigrationFaults) (db after : LegacyDb),
      migrateLegacyDeviceSecrets generate faults db = .ok after →
      ((∀ device ∈ db.devices.rows, db.legacy → device.secret.isSome →
        ∃ device' hash, after.devices.find? (legacyKey device) = some device' ∧
          device'.secret = none ∧ device'.secretHash = some hash ∧
          (CanonicalBcrypt hash ∨
            ∃ key secret, hashDeviceSecret (generate key) secret = .ok hash)) ↔
      ∀ device ∈ db.devices.rows, db.legacy → device.secret.isSome →
        ∀ hash, device.secretHash = some hash → ¬ SignedBcrypt hash) := by
  refine ⟨fun hash => ⟨fun hiff hsigned => ?_, fun hsigned => ?_⟩, fun faults db after hmigrate =>
    ⟨fun hall device hdevice hlegacy hsome hash hhash hsigned => ?_,
      fun hall device hdevice hlegacy hsome => ?_⟩⟩
  · exact hsigned.not_canonical (hiff.mp (validBcryptEncoding_cases.mpr (.inr hsigned)))
  · rw [validBcryptEncoding_cases]
    exact ⟨fun h => h.resolve_right hsigned, .inl⟩
  · -- the hash with a plus sign is kept
    obtain ⟨secret, hsecret⟩ := Option.isSome_iff_exists.mp hsome
    obtain ⟨kept, hkept, hrow⟩ := migrate_row hmigrate hlegacy hdevice hsecret
    obtain ⟨device', hash', hfind, -, hhash', hform⟩ := hall device hdevice hlegacy hsome
    rw [hrow] at hfind
    cases hfind
    cases hhash'
    have hsame : hash = kept := by
      obtain ⟨hempty, -⟩ | ⟨hsame, -⟩ := migratedHash_cases hkept
      · rw [hhash] at hempty
        exact absurd hempty (signed_ne_nil hsigned)
      · rwa [hhash] at hsame
    subst hsame
    obtain hcanonical | ⟨key, secret', hproduced⟩ := hform
    · exact hsigned.not_canonical hcanonical
    · obtain ⟨-, -, hgenerated⟩ := bind_eq_ok.mp hproduced
      exact hgenerate key secret' hash hgenerated hsigned
  · obtain ⟨secret, hsecret⟩ := Option.isSome_iff_exists.mp hsome
    obtain ⟨kept, hkept, hrow⟩ := migrate_row hmigrate hlegacy hdevice hsecret
    refine ⟨_, kept, hrow, rfl, rfl, ?_⟩
    obtain ⟨-, hnew⟩ | ⟨hsame, hne, hvalid⟩ := migratedHash_cases hkept
    · exact .inr ⟨_, _, hnew⟩
    · have hstored : device.secretHash = some kept := by
        cases hhash : device.secretHash with
        | none =>
            rw [hhash] at hsame
            exact absurd hsame.symm hne
        | some hash =>
            rw [hhash] at hsame
            exact congrArg some hsame
      exact .inl ((validBcryptEncoding_cases.mp hvalid).resolve_right
        (hall device hdevice hlegacy hsome kept hstored))

/-- A hash with this cost, of zeros. -/
def zeroHash (cost : String) : Bytes :=
  ascii "$2a$" ++ (ascii cost ++ 0x24 :: List.replicate 53 0x2E)

/-- A database with one device, whose hash has this cost. -/
def oneDevice (cost : String) : LegacyDb where
  legacy := true
  devices := ⟨[⟨ascii "t", ascii "d", some (ascii "secret"), some (zeroHash cost)⟩], by simp⟩

/-- A database without errors. -/
def noMigrationFaults : MigrationFaults := ⟨none, none, fun _ => none⟩

theorem zeroHash_layout (cost : String) : BcryptLayout (ascii cost) (zeroHash cost) :=
  ⟨ascii "$2a$", by decide, List.replicate 16 0, List.replicate 23 0, by decide, by decide, by
    rw [zeroHash, show bcryptAlphabet.encode (List.replicate 16 0) ++
      bcryptAlphabet.encode (List.replicate 23 0) = List.replicate 53 0x2E by decide]⟩

theorem zeroHash_canonical : CanonicalBcrypt (zeroHash "10") :=
  ⟨ascii "10", by decide, by decide, by decide, by decide, zeroHash_layout "10"⟩

/-- A device with a canonical hash keeps it and loses its secret. -/
theorem legacy_hashes_canonical_ten :
    ∃ after device' hash,
      migrateLegacyDeviceSecrets (fun _ _ => .ok (zeroHash "10")) noMigrationFaults
        (oneDevice "10") =
        .ok after ∧
      after.devices.find? (ascii "t", ascii "d") = some device' ∧ device'.secret = none ∧
      device'.secretHash = some hash ∧
      (CanonicalBcrypt hash ∨ ∃ (_ : Bytes × Bytes) (secret : Bytes),
        hashDeviceSecret (fun _ => .ok (zeroHash "10")) secret = .ok hash) := by
  have hunsigned : ¬ SignedBcrypt (zeroHash "10") := fun h => h.not_canonical zeroHash_canonical
  have hok : (migrateLegacyDeviceSecrets (fun _ _ => .ok (zeroHash "10")) noMigrationFaults
      (oneDevice "10")).toBool = true := by decide +kernel
  cases hmigrate : migrateLegacyDeviceSecrets (fun _ _ => .ok (zeroHash "10")) noMigrationFaults
      (oneDevice "10") with
  | error err =>
      rw [hmigrate] at hok
      cases hok
  | ok after =>
      have hmain := (legacy_hashes_canonical (fun _ _ => .ok (zeroHash "10"))
        (fun _ _ hash hhash => by cases hhash; exact hunsigned)).2 noMigrationFaults
        (oneDevice "10") after
        hmigrate
      obtain ⟨device', hash, hrow⟩ := hmain.mpr (fun device hdevice _ _ hash hhash => by
        rw [List.mem_singleton.mp hdevice] at hhash
        cases hhash
        exact hunsigned) _ (List.mem_singleton_self _) rfl rfl
      exact ⟨after, device', hash, rfl, hrow⟩

/-- A hash with the cost `+5` is accepted though it is not canonical, and the migration keeps it
and erases the secret. -/
theorem signed_cost_accepted :
    validBcryptEncoding (zeroHash "+5") = true ∧ ¬ CanonicalBcrypt (zeroHash "+5") ∧
      (migrateLegacyDeviceSecrets (fun _ _ => .ok (zeroHash "10")) noMigrationFaults
        (oneDevice "+5")).map (fun after => after.devices.rows) =
        .ok [⟨ascii "t", ascii "d", none, some (zeroHash "+5")⟩] := by
  have hsigned : SignedBcrypt (zeroHash "+5") := ⟨0x35, by decide, by decide, zeroHash_layout "+5"⟩
  exact ⟨by decide +kernel, hsigned.not_canonical, by decide +kernel⟩

end Iot.Store
