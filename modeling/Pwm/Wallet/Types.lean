import Pwm.Wallet.AddressBook
import Pwm.Lib.Yaml

/-!
# Wallet documents

The records kept in a wallet file. Schemas 1 and 2 have one account at the root
of the document, schema 3 has a list of account rows. Each record is read from
the entries of a mapping and written as entries.
-/

namespace Pwm

open Yaml

/-! ## Rows of the address book -/

namespace AddressBookEntry

/-- A text is an address, a mapping has an address and may have a label. -/
def read : Value → Option AddressBookEntry
  | .string s => some (.addressOnly s)
  | .mapping m => do
      let address ← Mapping.required m "address" Value.asStr
      let label ← Mapping.optional m "label" Value.asStr
      return .withLabel address label
  | _ => none

def write : AddressBookEntry → Value
  | .addressOnly s => .string s
  | .withLabel address label =>
      .mapping (field "address" (.string address) ++ optField "label" .string label)

theorem writes : Writes read write where
  ne_null entry := by cases entry <;> exact Value.noConfusion
  read_write entry := by
    cases entry with
    | addressOnly s => rfl
    | withLabel address label =>
        have haddress : Mapping.required (field "address" (.string address) ++
            optField "label" .string label) "address" Value.asStr = some address :=
          required_of_get writes_string (by simp)
        have hlabel : Mapping.optional (field "address" (.string address) ++
            optField "label" .string label) "label" Value.asStr = some label :=
          optional_of_get writes_string (by simp)
        simp only [write, read, haddress, hlabel]
        rfl

end AddressBookEntry

/-! ## Secrets -/

/-- The secrets that every reader knows, and how they are protected. -/
structure WalletReadKeys where
  masterSeedHex : Option Text
  signingKeyHex : Option Text
  encryptedPayloadB64 : Option Text
  kdfSaltB64 : Option Text
  aeadNonceB64 : Option Text
  kdf : Option Text
  kdfIters : Option U32
  deriving DecidableEq

structure WalletKeys extends WalletReadKeys where
  masterSeedB64 : Option Text
  signingKeyB64 : Option Text
  verifyingKeyHex : Option Text
  verifyingKeyB64 : Option Text
  deriving DecidableEq

def WalletReadKeys.read (m : Mapping) : Option WalletReadKeys := do
  let masterSeedHex ← m.optional "master_seed_hex" Value.asStr
  let signingKeyHex ← m.optional "signing_key_hex" Value.asStr
  let encryptedPayloadB64 ← m.optional "encrypted_payload_b64" Value.asStr
  let kdfSaltB64 ← m.optional "kdf_salt_b64" Value.asStr
  let aeadNonceB64 ← m.optional "aead_nonce_b64" Value.asStr
  let kdf ← m.optional "kdf" Value.asStr
  let kdfIters ← m.optional "kdf_iters" (readUint 32)
  return ⟨masterSeedHex, signingKeyHex, encryptedPayloadB64, kdfSaltB64, aeadNonceB64, kdf,
    kdfIters⟩

def WalletKeys.read (m : Mapping) : Option WalletKeys := do
  let keys ← WalletReadKeys.read m
  let masterSeedB64 ← m.optional "master_seed_b64" Value.asStr
  let signingKeyB64 ← m.optional "signing_key_b64" Value.asStr
  let verifyingKeyHex ← m.optional "verifying_key_hex" Value.asStr
  let verifyingKeyB64 ← m.optional "verifying_key_b64" Value.asStr
  return ⟨keys, masterSeedB64, signingKeyB64, verifyingKeyHex, verifyingKeyB64⟩

def WalletKeys.fields (keys : WalletKeys) : Mapping :=
  optField "master_seed_hex" .string keys.masterSeedHex ++
  optField "master_seed_b64" .string keys.masterSeedB64 ++
  optField "signing_key_hex" .string keys.signingKeyHex ++
  optField "signing_key_b64" .string keys.signingKeyB64 ++
  optField "verifying_key_hex" .string keys.verifyingKeyHex ++
  optField "verifying_key_b64" .string keys.verifyingKeyB64 ++
  optField "encrypted_payload_b64" .string keys.encryptedPayloadB64 ++
  optField "kdf_salt_b64" .string keys.kdfSaltB64 ++
  optField "aead_nonce_b64" .string keys.aeadNonceB64 ++
  optField "kdf" .string keys.kdf ++
  optField "kdf_iters" uint keys.kdfIters

theorem WalletReadKeys.read_eq_some {m : Mapping} {keys : WalletReadKeys} :
    read m = some keys ↔
      m.optional "master_seed_hex" Value.asStr = some keys.masterSeedHex ∧
      m.optional "signing_key_hex" Value.asStr = some keys.signingKeyHex ∧
      m.optional "encrypted_payload_b64" Value.asStr = some keys.encryptedPayloadB64 ∧
      m.optional "kdf_salt_b64" Value.asStr = some keys.kdfSaltB64 ∧
      m.optional "aead_nonce_b64" Value.asStr = some keys.aeadNonceB64 ∧
      m.optional "kdf" Value.asStr = some keys.kdf ∧
      m.optional "kdf_iters" (readUint 32) = some keys.kdfIters := by
  constructor
  · intro h
    simp only [read, Option.bind_eq_bind, Option.bind_eq_some_iff, pure, Option.some.injEq] at h
    obtain ⟨_, h1, _, h2, _, h3, _, h4, _, h5, _, h6, _, h7, rfl⟩ := h
    exact ⟨h1, h2, h3, h4, h5, h6, h7⟩
  · rintro ⟨h1, h2, h3, h4, h5, h6, h7⟩
    simp only [read, h1, h2, h3, h4, h5, h6, h7]
    rfl

theorem WalletKeys.read_eq_some {m : Mapping} {keys : WalletKeys} :
    read m = some keys ↔
      WalletReadKeys.read m = some keys.toWalletReadKeys ∧
      m.optional "master_seed_b64" Value.asStr = some keys.masterSeedB64 ∧
      m.optional "signing_key_b64" Value.asStr = some keys.signingKeyB64 ∧
      m.optional "verifying_key_hex" Value.asStr = some keys.verifyingKeyHex ∧
      m.optional "verifying_key_b64" Value.asStr = some keys.verifyingKeyB64 := by
  constructor
  · intro h
    simp only [read, Option.bind_eq_bind, Option.bind_eq_some_iff, pure, Option.some.injEq] at h
    obtain ⟨_, h1, _, h2, _, h3, _, h4, _, h5, rfl⟩ := h
    exact ⟨h1, h2, h3, h4, h5⟩
  · rintro ⟨h1, h2, h3, h4, h5⟩
    simp only [read, h1, h2, h3, h4, h5]
    rfl

def WalletKeys.names : List String :=
  ["master_seed_hex", "master_seed_b64", "signing_key_hex", "signing_key_b64",
    "verifying_key_hex", "verifying_key_b64", "encrypted_payload_b64", "kdf_salt_b64",
    "aead_nonce_b64", "kdf", "kdf_iters"]

/-- The secrets are read back from a document with their fields. -/
theorem WalletKeys.read_of_fields {m : Mapping} {keys : WalletKeys}
    (h : ∀ name ∈ names, m.get name = keys.fields.get name) : read m = some keys := by
  apply read_eq_some.mpr
  refine ⟨WalletReadKeys.read_eq_some.mpr ⟨?_, ?_, ?_, ?_, ?_, ?_, ?_⟩, ?_, ?_, ?_, ?_⟩
  · exact optional_of_get writes_string ((h _ (by simp [names])).trans (by simp [fields]))
  · exact optional_of_get writes_string ((h _ (by simp [names])).trans (by simp [fields]))
  · exact optional_of_get writes_string ((h _ (by simp [names])).trans (by simp [fields]))
  · exact optional_of_get writes_string ((h _ (by simp [names])).trans (by simp [fields]))
  · exact optional_of_get writes_string ((h _ (by simp [names])).trans (by simp [fields]))
  · exact optional_of_get writes_string ((h _ (by simp [names])).trans (by simp [fields]))
  · exact optional_of_get (writes_uint 32) ((h _ (by simp [names])).trans (by simp [fields]))
  · exact optional_of_get writes_string ((h _ (by simp [names])).trans (by simp [fields]))
  · exact optional_of_get writes_string ((h _ (by simp [names])).trans (by simp [fields]))
  · exact optional_of_get writes_string ((h _ (by simp [names])).trans (by simp [fields]))
  · exact optional_of_get writes_string ((h _ (by simp [names])).trans (by simp [fields]))

/-! ## Account rows -/

structure WalletReadV3Account where
  derivationPath : Text
  derivationIndex : U32
  domainU16 : U16
  flagsMaskU32 : U32
  expectedFlagsU32 : U32
  flagsDerivedU32 : U32
  idHex : Text
  idPretty : Text
  deriving DecidableEq

structure WalletYamlV3Account extends WalletReadV3Account where
  addedAtUnixSec : Option U64
  deriving DecidableEq

def WalletReadV3Account.read (m : Mapping) : Option WalletReadV3Account := do
  let derivationPath ← m.required "derivation_path" Value.asStr
  let derivationIndex ← m.required "derivation_index" (readUint 32)
  let domainU16 ← m.required "domain_u16" (readUint 16)
  let flagsMaskU32 ← m.required "flags_mask_u32" (readUint 32)
  let expectedFlagsU32 ← m.required "expected_flags_u32" (readUint 32)
  let flagsDerivedU32 ← m.required "flags_derived_u32" (readUint 32)
  let idHex ← m.required "id_hex" Value.asStr
  let idPretty ← m.required "id_pretty" Value.asStr
  return ⟨derivationPath, derivationIndex, domainU16, flagsMaskU32, expectedFlagsU32,
    flagsDerivedU32, idHex, idPretty⟩

def WalletYamlV3Account.read (m : Mapping) : Option WalletYamlV3Account := do
  let row ← WalletReadV3Account.read m
  let addedAtUnixSec ← m.optional "added_at_unix_sec" (readUint 64)
  return ⟨row, addedAtUnixSec⟩

/-- The fields that every row has. -/
def WalletReadV3Account.fields (row : WalletReadV3Account) : Mapping :=
  field "derivation_index" (uint row.derivationIndex) ++
  field "derivation_path" (.string row.derivationPath) ++
  field "domain_u16" (uint row.domainU16) ++
  field "flags_mask_u32" (uint row.flagsMaskU32) ++
  field "expected_flags_u32" (uint row.expectedFlagsU32) ++
  field "flags_derived_u32" (uint row.flagsDerivedU32) ++
  field "id_hex" (.string row.idHex) ++
  field "id_pretty" (.string row.idPretty)

def WalletYamlV3Account.write (row : WalletYamlV3Account) : Value :=
  .mapping (row.toWalletReadV3Account.fields ++
    optField "added_at_unix_sec" uint row.addedAtUnixSec)

theorem WalletReadV3Account.read_eq_some {m : Mapping} {row : WalletReadV3Account} :
    read m = some row ↔
      m.required "derivation_path" Value.asStr = some row.derivationPath ∧
      m.required "derivation_index" (readUint 32) = some row.derivationIndex ∧
      m.required "domain_u16" (readUint 16) = some row.domainU16 ∧
      m.required "flags_mask_u32" (readUint 32) = some row.flagsMaskU32 ∧
      m.required "expected_flags_u32" (readUint 32) = some row.expectedFlagsU32 ∧
      m.required "flags_derived_u32" (readUint 32) = some row.flagsDerivedU32 ∧
      m.required "id_hex" Value.asStr = some row.idHex ∧
      m.required "id_pretty" Value.asStr = some row.idPretty := by
  constructor
  · intro h
    simp only [read, Option.bind_eq_bind, Option.bind_eq_some_iff, pure, Option.some.injEq] at h
    obtain ⟨_, h1, _, h2, _, h3, _, h4, _, h5, _, h6, _, h7, _, h8, rfl⟩ := h
    exact ⟨h1, h2, h3, h4, h5, h6, h7, h8⟩
  · rintro ⟨h1, h2, h3, h4, h5, h6, h7, h8⟩
    simp only [read, h1, h2, h3, h4, h5, h6, h7, h8]
    rfl

theorem WalletYamlV3Account.read_eq_some {m : Mapping} {row : WalletYamlV3Account} :
    read m = some row ↔
      WalletReadV3Account.read m = some row.toWalletReadV3Account ∧
      m.optional "added_at_unix_sec" (readUint 64) = some row.addedAtUnixSec := by
  constructor
  · intro h
    simp only [read, Option.bind_eq_bind, Option.bind_eq_some_iff, pure, Option.some.injEq] at h
    obtain ⟨_, h1, _, h2, rfl⟩ := h
    exact ⟨h1, h2⟩
  · rintro ⟨h1, h2⟩
    simp only [read, h1, h2]
    rfl

theorem WalletYamlV3Account.writes : Writes (Value.record read) write where
  ne_null _ := Value.noConfusion
  read_write row := by
    rw [write, Value.record_mapping, read_eq_some]
    refine ⟨WalletReadV3Account.read_eq_some.mpr ⟨?_, ?_, ?_, ?_, ?_, ?_, ?_, ?_⟩, ?_⟩
    · exact required_of_get writes_string (by simp [WalletReadV3Account.fields])
    · exact required_of_get (writes_uint 32) (by simp [WalletReadV3Account.fields])
    · exact required_of_get (writes_uint 16) (by simp [WalletReadV3Account.fields])
    · exact required_of_get (writes_uint 32) (by simp [WalletReadV3Account.fields])
    · exact required_of_get (writes_uint 32) (by simp [WalletReadV3Account.fields])
    · exact required_of_get (writes_uint 32) (by simp [WalletReadV3Account.fields])
    · exact required_of_get writes_string (by simp [WalletReadV3Account.fields])
    · exact required_of_get writes_string (by simp [WalletReadV3Account.fields])
    · exact optional_of_get (writes_uint 64) (by simp [WalletReadV3Account.fields])

/-! ## Schema 3 -/

structure WalletYamlV3 extends WalletKeys where
  schemaVersion : U32
  mode : Text
  createdAtUnixSec : U64
  countryCodeLabel : Option Text
  activeAccountIdHex : Option Text
  accounts : List WalletYamlV3Account
  addressBook : List AddressBookEntry
  deriving DecidableEq

namespace WalletYamlV3

def read (m : Mapping) : Option WalletYamlV3 := do
  let keys ← WalletKeys.read m
  let schemaVersion ← m.required "schema_version" (readUint 32)
  let mode ← m.required "mode" Value.asStr
  let createdAtUnixSec ← m.required "created_at_unix_sec" (readUint 64)
  let countryCodeLabel ← m.optional "country_code_label" Value.asStr
  let activeAccountIdHex ← m.optional "active_account_id_hex" Value.asStr
  let accounts ← m.required "accounts" (readSeq (Value.record WalletYamlV3Account.read))
  let addressBook ← m.defaulted "address_book" (readSeq AddressBookEntry.read) []
  return ⟨keys, schemaVersion, mode, createdAtUnixSec, countryCodeLabel, activeAccountIdHex,
    accounts, addressBook⟩

def fields (wallet : WalletYamlV3) : Mapping :=
  field "schema_version" (uint wallet.schemaVersion) ++
  field "mode" (.string wallet.mode) ++
  field "created_at_unix_sec" (uint wallet.createdAtUnixSec) ++
  optField "country_code_label" .string wallet.countryCodeLabel ++
  optField "active_account_id_hex" .string wallet.activeAccountIdHex ++
  field "accounts" (.sequence (wallet.accounts.map WalletYamlV3Account.write)) ++
  wallet.toWalletKeys.fields ++
  seqField "address_book" AddressBookEntry.write wallet.addressBook

theorem read_eq_some {m : Mapping} {wallet : WalletYamlV3} :
    read m = some wallet ↔
      WalletKeys.read m = some wallet.toWalletKeys ∧
      m.required "schema_version" (readUint 32) = some wallet.schemaVersion ∧
      m.required "mode" Value.asStr = some wallet.mode ∧
      m.required "created_at_unix_sec" (readUint 64) = some wallet.createdAtUnixSec ∧
      m.optional "country_code_label" Value.asStr = some wallet.countryCodeLabel ∧
      m.optional "active_account_id_hex" Value.asStr = some wallet.activeAccountIdHex ∧
      m.required "accounts" (readSeq (Value.record WalletYamlV3Account.read)) =
        some wallet.accounts ∧
      m.defaulted "address_book" (readSeq AddressBookEntry.read) [] =
        some wallet.addressBook := by
  constructor
  · intro h
    simp only [read, Option.bind_eq_bind, Option.bind_eq_some_iff, pure, Option.some.injEq] at h
    obtain ⟨_, h1, _, h2, _, h3, _, h4, _, h5, _, h6, _, h7, _, h8, rfl⟩ := h
    exact ⟨h1, h2, h3, h4, h5, h6, h7, h8⟩
  · rintro ⟨h1, h2, h3, h4, h5, h6, h7, h8⟩
    simp only [read, h1, h2, h3, h4, h5, h6, h7, h8]
    rfl

/-- A document of schema 3 is read back. -/
theorem read_fields (wallet : WalletYamlV3) : read wallet.fields = some wallet := by
  have hkeys : ∀ name ∈ WalletKeys.names,
      wallet.fields.get name = wallet.toWalletKeys.fields.get name := by
    intro name hname
    simp only [WalletKeys.names, List.mem_cons, List.not_mem_nil, or_false] at hname
    rcases hname with rfl | rfl | rfl | rfl | rfl | rfl | rfl | rfl | rfl | rfl | rfl <;>
      simp [fields]
  have haccounts : wallet.fields.required "accounts"
      (readSeq (Value.record WalletYamlV3Account.read)) = some wallet.accounts :=
    required_of_get (writes_sequence WalletYamlV3Account.writes) (by simp [fields])
  have hbook : wallet.fields.defaulted "address_book" (readSeq AddressBookEntry.read) [] =
      some wallet.addressBook :=
    defaulted_seqField AddressBookEntry.writes (by simp [fields, WalletKeys.fields])
  refine read_eq_some.mpr ⟨WalletKeys.read_of_fields hkeys, ?_, ?_, ?_, ?_, ?_, haccounts, hbook⟩
  · exact required_of_get (writes_uint 32) (by simp [fields])
  · exact required_of_get writes_string (by simp [fields])
  · exact required_of_get (writes_uint 64) (by simp [fields])
  · exact optional_of_get writes_string (by simp [fields, WalletKeys.fields])
  · exact optional_of_get writes_string (by simp [fields, WalletKeys.fields])

end WalletYamlV3

/-! ## Schemas 1 and 2 -/

/-- A wallet as the commands use it; the last field is not in the file. -/
structure WalletYaml extends WalletKeys where
  schemaVersion : U32
  mode : Text
  createdAtUnixSec : U64
  countryCodeLabel : Option Text
  derivationIndex : U32
  derivationPath : Option Text
  domainU16 : U16
  flagsMaskU32 : U32
  expectedFlagsU32 : U32
  flagsDerivedU32 : U32
  accountIdHex : Text
  accountIdHuman : Text
  addressBook : List AddressBookEntry
  ignoredLegacyPrettyEntries : Nat
  deriving DecidableEq

namespace WalletYaml

def read (m : Mapping) : Option WalletYaml := do
  let keys ← WalletKeys.read m
  let schemaVersion ← m.required "schema_version" (readUint 32)
  let mode ← m.required "mode" Value.asStr
  let createdAtUnixSec ← m.required "created_at_unix_sec" (readUint 64)
  let countryCodeLabel ← m.optional "country_code_label" Value.asStr
  let derivationIndex ← m.required "derivation_index" (readUint 32)
  let derivationPath ← m.optional "derivation_path" Value.asStr
  let domainU16 ← m.required "domain_u16" (readUint 16)
  let flagsMaskU32 ← m.required "flags_mask_u32" (readUint 32)
  let expectedFlagsU32 ← m.required "expected_flags_u32" (readUint 32)
  let flagsDerivedU32 ← m.required "flags_derived_u32" (readUint 32)
  let accountIdHex ← m.required "account_id_hex" Value.asStr
  let accountIdHuman ← m.required "account_id_human" Value.asStr
  let addressBook ← m.defaulted "address_book" (readSeq AddressBookEntry.read) []
  return ⟨keys, schemaVersion, mode, createdAtUnixSec, countryCodeLabel, derivationIndex,
    derivationPath, domainU16, flagsMaskU32, expectedFlagsU32, flagsDerivedU32, accountIdHex,
    accountIdHuman, addressBook, 0⟩

/-- A missing derivation path is written as no value. -/
def fields (wallet : WalletYaml) : Mapping :=
  field "schema_version" (uint wallet.schemaVersion) ++
  field "mode" (.string wallet.mode) ++
  field "created_at_unix_sec" (uint wallet.createdAtUnixSec) ++
  optField "country_code_label" .string wallet.countryCodeLabel ++
  field "derivation_index" (uint wallet.derivationIndex) ++
  field "derivation_path" (wallet.derivationPath.elim .null .string) ++
  field "domain_u16" (uint wallet.domainU16) ++
  field "flags_mask_u32" (uint wallet.flagsMaskU32) ++
  field "expected_flags_u32" (uint wallet.expectedFlagsU32) ++
  field "flags_derived_u32" (uint wallet.flagsDerivedU32) ++
  field "account_id_hex" (.string wallet.accountIdHex) ++
  field "account_id_human" (.string wallet.accountIdHuman) ++
  wallet.toWalletKeys.fields ++
  seqField "address_book" AddressBookEntry.write wallet.addressBook

theorem read_eq_some {m : Mapping} {wallet : WalletYaml} :
    read m = some wallet ↔
      WalletKeys.read m = some wallet.toWalletKeys ∧
      m.required "schema_version" (readUint 32) = some wallet.schemaVersion ∧
      m.required "mode" Value.asStr = some wallet.mode ∧
      m.required "created_at_unix_sec" (readUint 64) = some wallet.createdAtUnixSec ∧
      m.optional "country_code_label" Value.asStr = some wallet.countryCodeLabel ∧
      m.required "derivation_index" (readUint 32) = some wallet.derivationIndex ∧
      m.optional "derivation_path" Value.asStr = some wallet.derivationPath ∧
      m.required "domain_u16" (readUint 16) = some wallet.domainU16 ∧
      m.required "flags_mask_u32" (readUint 32) = some wallet.flagsMaskU32 ∧
      m.required "expected_flags_u32" (readUint 32) = some wallet.expectedFlagsU32 ∧
      m.required "flags_derived_u32" (readUint 32) = some wallet.flagsDerivedU32 ∧
      m.required "account_id_hex" Value.asStr = some wallet.accountIdHex ∧
      m.required "account_id_human" Value.asStr = some wallet.accountIdHuman ∧
      m.defaulted "address_book" (readSeq AddressBookEntry.read) [] = some wallet.addressBook ∧
      wallet.ignoredLegacyPrettyEntries = 0 := by
  constructor
  · intro h
    obtain ⟨_, h1, h⟩ := Option.bind_eq_some_iff.mp h
    obtain ⟨_, h2, h⟩ := Option.bind_eq_some_iff.mp h
    obtain ⟨_, h3, h⟩ := Option.bind_eq_some_iff.mp h
    obtain ⟨_, h4, h⟩ := Option.bind_eq_some_iff.mp h
    obtain ⟨_, h5, h⟩ := Option.bind_eq_some_iff.mp h
    obtain ⟨_, h6, h⟩ := Option.bind_eq_some_iff.mp h
    obtain ⟨_, h7, h⟩ := Option.bind_eq_some_iff.mp h
    obtain ⟨_, h8, h⟩ := Option.bind_eq_some_iff.mp h
    obtain ⟨_, h9, h⟩ := Option.bind_eq_some_iff.mp h
    obtain ⟨_, h10, h⟩ := Option.bind_eq_some_iff.mp h
    obtain ⟨_, h11, h⟩ := Option.bind_eq_some_iff.mp h
    obtain ⟨_, h12, h⟩ := Option.bind_eq_some_iff.mp h
    obtain ⟨_, h13, h⟩ := Option.bind_eq_some_iff.mp h
    obtain ⟨_, h14, h⟩ := Option.bind_eq_some_iff.mp h
    obtain rfl := Option.some.inj h
    exact ⟨h1, h2, h3, h4, h5, h6, h7, h8, h9, h10, h11, h12, h13, h14, rfl⟩
  · rintro ⟨h1, h2, h3, h4, h5, h6, h7, h8, h9, h10, h11, h12, h13, h14, h15⟩
    simp only [read, h1, h2, h3, h4, h5, h6, h7, h8, h9, h10, h11, h12, h13, h14]
    rw [← h15]
    rfl

/-- A document of schema 1 or 2 is read back. -/
theorem read_fields (wallet : WalletYaml) :
    read wallet.fields = some { wallet with ignoredLegacyPrettyEntries := 0 } := by
  have hkeys : ∀ name ∈ WalletKeys.names,
      wallet.fields.get name = wallet.toWalletKeys.fields.get name := by
    intro name hname
    simp only [WalletKeys.names, List.mem_cons, List.not_mem_nil, or_false] at hname
    rcases hname with rfl | rfl | rfl | rfl | rfl | rfl | rfl | rfl | rfl | rfl | rfl <;>
      simp [fields]
  have hpath : wallet.fields.optional "derivation_path" Value.asStr =
      some wallet.derivationPath :=
    optional_of_elim writes_string (by simp [fields])
  have hbook : wallet.fields.defaulted "address_book" (readSeq AddressBookEntry.read) [] =
      some wallet.addressBook :=
    defaulted_seqField AddressBookEntry.writes (by simp [fields, WalletKeys.fields])
  refine read_eq_some.mpr ⟨WalletKeys.read_of_fields hkeys, ?_, ?_, ?_, ?_, ?_, hpath, ?_, ?_, ?_,
    ?_, ?_, ?_, hbook, rfl⟩
  · exact required_of_get (writes_uint 32) (by simp [fields])
  · exact required_of_get writes_string (by simp [fields])
  · exact required_of_get (writes_uint 64) (by simp [fields])
  · exact optional_of_get writes_string (by simp [fields, WalletKeys.fields])
  · exact required_of_get (writes_uint 32) (by simp [fields])
  · exact required_of_get (writes_uint 16) (by simp [fields])
  · exact required_of_get (writes_uint 32) (by simp [fields])
  · exact required_of_get (writes_uint 32) (by simp [fields])
  · exact required_of_get (writes_uint 32) (by simp [fields])
  · exact required_of_get writes_string (by simp [fields])
  · exact required_of_get writes_string (by simp [fields])

end WalletYaml

end Pwm
