import Pwm.Wallet.AccountCodec
import Pwm.Wallet.Types
import Pwm.Lib.Attempt

/-!
# Loading a wallet file

A file is read by the schema it names. The account comes from the seed, the
signing key, the hexadecimal id or the written id, in this order, and has to lie
in the domain of the wallet. A wallet of schema 2 is read once more as a document
of schema 3.
-/

namespace Pwm

open Yaml

/-- What the wallet commands take from libraries. -/
structure WalletLib where
  yaml : Serde
  crypto : Crypto
  deriveEd25519PrivateKey : Bytes32 → List U32 → SigningKey

variable (L : WalletLib)

/-! ## Texts of fields -/

/-- The text of a field without the white space at its ends, if any of it is left. -/
def nonBlank (o : Option Text) : Option Text :=
  (o.map Text.trim).filter fun s => decide (s ≠ [])

def decode32 (what : String) (digits : Text) : Except TextError Bytes32 :=
  match Text.hexDecode digits with
  | none => .error (.lib ("wallet " ++ what ++ " is invalid: "))
  | some bytes =>
      if bytes.length ≠ 32 then .error (.own ("wallet " ++ what ++ " must be 32-byte hex"))
      else .ok (bytes32 bytes)

def encodeHex (id : AccountId) : Text :=
  Digits.hexDigits (id.beBytes 32)

/-- The record at the root of a file. -/
def fromStr {α : Type} (read : Mapping → Option α) (raw : Text) : Except TextError α :=
  Attempt.orFail ((L.yaml.fromStr raw).bind (Value.record read)) (.lib "")

def detectSchemaVersion (raw : Text) : Except TextError U32 :=
  (fromStr L (fun m => m.optional "schema_version" (readUint 32)) raw).map fun v => v.getD 2#32

/-! ## The account of a wallet -/

/-- The account of a signing key. -/
def keyAccountId (key : SigningKey) (index : U32) : AccountId :=
  accountIdFromParts L.crypto (L.crypto.verifyingKey key) index

def seedAccountId (seed : Bytes32) (index : U32) : AccountId :=
  keyAccountId L (L.deriveEd25519PrivateKey seed [0#32, index]) index

def pathPrefix : Text :=
  "m/0/".toList

/-- The index at the end of a path, the index of the wallet without a path. -/
def pathIndex (path : Option Text) (index : U32) : Except TextError U32 :=
  match nonBlank path with
  | none => .ok index
  | some p =>
      match Text.stripPrefix pathPrefix p with
      | none =>
          .error (.own ("wallet derivation_path is invalid: expected 'm/0/<index>', got '" ++
            String.ofList p ++ "'"))
      | some digits =>
          (Digits.parseUnsigned 32 digits).mapError fun _ =>
            .own ("wallet derivation_path is invalid: expected numeric index, got '" ++
              String.ofList p ++ "'")

def idFromSource (keys : WalletReadKeys) (index : U32) : Except TextError (Option AccountId) :=
  match nonBlank keys.masterSeedHex with
  | some seedHex => (decode32 "master_seed_hex" seedHex).map fun seed =>
      some (seedAccountId L seed index)
  | none =>
      match nonBlank keys.signingKeyHex with
      | some keyHex => (decode32 "signing_key_hex" keyHex).map fun key =>
          some (keyAccountId L key index)
      | none => .ok none

namespace WalletYaml

def parseDerivationIndex (wallet : WalletYaml) : Except TextError U32 :=
  pathIndex wallet.derivationPath wallet.derivationIndex

def acctIdFromSource (wallet : WalletYaml) : Except TextError (Option AccountId) := do
  let index ← wallet.parseDerivationIndex
  idFromSource L wallet.toWalletReadKeys index

def resolveWalletAccountId (wallet : WalletYaml) : Except TextError AccountId := do
  match ← acctIdFromSource L wallet with
  | some id => pure id
  | none =>
      if Text.trim wallet.accountIdHex ≠ [] then
        (parseAccountId (Text.trim wallet.accountIdHex)).mapError
          (TextError.behind "wallet account_id_hex is invalid: ")
      else
        (parseAcctIdMig (Text.trim wallet.accountIdHuman)).mapError
          (TextError.behind "wallet account_id_human migration error: ")

end WalletYaml

/-! ## The address book -/

def isLegacyPrettyAddress (address : Text) : Bool :=
  "pwm1-".toList.isPrefixOf (Text.trim address)

/-- The row with the account written in bech32. -/
def AddressBookEntry.canonical (id : AccountId) : AddressBookEntry → AddressBookEntry
  | .addressOnly _ => .addressOnly (accountIdToBech32dx id)
  | .withLabel _ label => .withLabel (accountIdToBech32dx id) label

/-- The account of the row at a position. -/
def bookEntryId (idx : Nat) (entry : AddressBookEntry) : Except TextError AccountId :=
  entry.accountId.mapError (TextError.behind
    ("wallet address_book[" ++ String.ofList (Nat.toDigits 10 idx) ++ "] migration error: "))

/-- The rows from a position on, and how many in the pretty form were left out. -/
def normalizeBookFrom (idx : Nat) :
    List AddressBookEntry → Except TextError (List AddressBookEntry × Nat)
  | [] => .ok ([], 0)
  | entry :: rest =>
      if isLegacyPrettyAddress entry.addressStr then
        (normalizeBookFrom (idx + 1) rest).map fun p => (p.1, p.2 + 1)
      else do
        let id ← bookEntryId idx entry
        let p ← normalizeBookFrom (idx + 1) rest
        return (entry.canonical id :: p.1, p.2)

def normalizeAddressBookEntries (entries : List AddressBookEntry) :
    Except TextError (List AddressBookEntry × Nat) :=
  normalizeBookFrom 0 entries

/-! ## Schema 3 -/

def parseDerM0Path (path : Text) : Except TextError U32 :=
  match Text.stripPrefix pathPrefix (Text.trim path) with
  | none =>
      .error (.own ("wallet schema v3 derivation_path must start with 'm/0/', got '" ++
        String.ofList (Text.trim path) ++ "'"))
  | some digits =>
      (Digits.parseUnsigned 32 digits).mapError fun _ =>
        .own ("wallet schema v3 derivation_path must end with u32 index, got '" ++
          String.ofList (Text.trim path) ++ "'")

/-- The path of a row ends with its index; the error shows both. -/
def WalletReadV3Account.validatePath (row : WalletReadV3Account) : Except TextError Unit := do
  let pathIdx ← parseDerM0Path row.derivationPath
  Attempt.check (pathIdx = row.derivationIndex) (.lib "wallet schema v3 derivation_path ")

def validateRows {α : Type} (check : α → Except TextError Unit) : List α → Except TextError Unit
  | [] => .ok ()
  | row :: rest => do
      check row
      validateRows check rest

def validateV3DerivationPaths (wallet : WalletYamlV3) : Except TextError Unit :=
  validateRows (fun row => row.validatePath) wallet.accounts

/-- Whether the first row goes before the second: by index, then by id. -/
def WalletReadV3Account.before (a b : WalletReadV3Account) : Bool :=
  decide (a.derivationIndex < b.derivationIndex ∨
    (a.derivationIndex = b.derivationIndex ∧
      Text.toAsciiLower a.idHex < Text.toAsciiLower b.idHex))

/-- The first of the least rows. -/
def defaultRow {α : Type} (row : α → WalletReadV3Account) : List α → Option α
  | [] => none
  | a :: rest => some (rest.foldl (fun best b => if (row b).before (row best) then b else best) a)

def defaultV3Account : List WalletYamlV3Account → Option WalletYamlV3Account :=
  defaultRow WalletYamlV3Account.toWalletReadV3Account

def validateV3Master (wallet : WalletYamlV3) : Except TextError Unit :=
  match nonBlank wallet.masterSeedHex with
  | none => .ok ()
  | some seedHex => do
      let seed ← decode32 "master_seed_hex" seedHex
      validateRows (fun account : WalletYamlV3Account => do
        let actual ← (parseAccountId (Text.trim account.idHex)).mapError
          (TextError.behind "wallet schema v3 account id_hex is invalid: ")
        Attempt.check (seedAccountId L seed account.derivationIndex = actual)
          (.own ("wallet schema v3 account id_hex mismatch at derivation_index=" ++
            String.ofList (Nat.toDigits 10 account.derivationIndex.toNat) ++ ": expected " ++
            String.ofList (encodeHex (seedAccountId L seed account.derivationIndex)))))
        wallet.accounts

/-- The wallet with this row as its account. -/
def WalletYamlV3.withAccount (wallet : WalletYamlV3) (account : WalletYamlV3Account) : WalletYaml :=
  { toWalletKeys := wallet.toWalletKeys
    schemaVersion := 3#32
    mode := wallet.mode
    createdAtUnixSec := wallet.createdAtUnixSec
    countryCodeLabel := wallet.countryCodeLabel
    derivationIndex := account.derivationIndex
    derivationPath := some account.derivationPath
    domainU16 := account.domainU16
    flagsMaskU32 := account.flagsMaskU32
    expectedFlagsU32 := account.expectedFlagsU32
    flagsDerivedU32 := account.flagsDerivedU32
    accountIdHex := account.idHex
    accountIdHuman := account.idPretty
    addressBook := wallet.addressBook
    ignoredLegacyPrettyEntries := 0 }

def WalletYamlV3.withDefaultAccount (wallet : WalletYamlV3) : Except TextError WalletYaml := do
  validateV3DerivationPaths wallet
  let account ← Attempt.orFail (defaultV3Account wallet.accounts)
    (.own "wallet schema v3 requires non-empty accounts")
  if wallet.mode = "plaintext_dev".toList then validateV3Master L wallet
  pure (wallet.withAccount account)

def parseWalletYamlV3 (raw : Text) : Except TextError WalletYaml := do
  let wallet ← fromStr L WalletYamlV3.read raw
  wallet.withDefaultAccount L

def parseWalletYaml (raw : Text) : Except TextError WalletYaml :=
  fromStr L WalletYaml.read raw

/-! ## Loading -/

def migratedPath (wallet : WalletYaml) : Text :=
  (nonBlank wallet.derivationPath).getD
    (pathPrefix ++ Nat.toDigits 10 wallet.derivationIndex.toNat)

/-- The account row of a wallet with one account. -/
def WalletYaml.v3Account (wallet : WalletYaml) (idHex : Text) (id : AccountId) :
    WalletYamlV3Account :=
  { derivationIndex := wallet.derivationIndex
    derivationPath := migratedPath wallet
    domainU16 := wallet.domainU16
    flagsMaskU32 := wallet.flagsMaskU32
    expectedFlagsU32 := wallet.expectedFlagsU32
    flagsDerivedU32 := wallet.flagsDerivedU32
    idHex := idHex
    idPretty := accountIdToHuman id
    addedAtUnixSec := some wallet.createdAtUnixSec }

/-- The wallet as a document of schema 3. -/
def WalletYaml.toV3 (wallet : WalletYaml) (idHex : Text) (id : AccountId) : WalletYamlV3 :=
  { toWalletKeys := wallet.toWalletKeys
    schemaVersion := 3#32
    mode := wallet.mode
    createdAtUnixSec := wallet.createdAtUnixSec
    countryCodeLabel := wallet.countryCodeLabel
    activeAccountIdHex := none
    accounts := [wallet.v3Account idHex id]
    addressBook := wallet.addressBook }

def migrateWalletV2V3 (wallet : WalletYaml) : Except TextError WalletYamlV3 := do
  let activeAccountIdHex := Text.toAsciiLower (Text.trim wallet.accountIdHex)
  let activeAccountId ← parseAccountId activeAccountIdHex
  return wallet.toV3 activeAccountIdHex activeAccountId

/-- The wallet with this account and this address book. -/
def WalletYaml.normal (wallet : WalletYaml) (id : AccountId) (book : List AddressBookEntry)
    (ignored : Nat) : WalletYaml :=
  { wallet with
    accountIdHex := encodeHex id
    accountIdHuman := accountIdToHuman id
    addressBook := book
    ignoredLegacyPrettyEntries := ignored }

/-- The wallet of a file with its account and its address book in their canonical forms. -/
def normalizeWalletYaml (wallet : WalletYaml) : Except TextError WalletYaml := do
  let accountId ← wallet.resolveWalletAccountId L
  Attempt.check (domainOfAccountId accountId = wallet.domainU16)
    (.own ("wallet domain_u16/account_id_hex mismatch: domain_u16=" ++
      String.ofList (Nat.toDigits 10 wallet.domainU16.toNat) ++ " account_id_domain=" ++
      String.ofList (Nat.toDigits 10 (domainOfAccountId accountId).toNat)))
  let (book, ignored) ← normalizeAddressBookEntries wallet.addressBook
  return wallet.normal accountId book ignored

def parseSchema (schemaVersion : U32) (raw : Text) : Except TextError WalletYaml :=
  if schemaVersion = 3#32 then parseWalletYamlV3 L raw else parseWalletYaml L raw

def loadWalletYaml (raw : Text) : Except TextError WalletYaml := do
  let schemaVersion ← detectSchemaVersion L raw
  let parsed ← parseSchema L schemaVersion raw
  let wallet ← normalizeWalletYaml L parsed
  if schemaVersion = 2#32 then do
    let migrated ← migrateWalletV2V3 wallet
    parseWalletYamlV3 L (L.yaml.toStr (.mapping migrated.fields))
  else pure wallet

/-! ## The account that a wallet names -/

/-- Where the account of a wallet may come from. -/
structure IdSources where
  keys : WalletReadKeys
  path : Option Text
  index : U32
  hex : Option Text
  human : Text

/-- The account that the written ids name; the readable one counts without the other. -/
def IdSources.cached (sources : IdSources) : Option AccountId :=
  match nonBlank sources.hex with
  | some hex => (parseAccountId hex).toOption
  | none => (parseAcctIdMig (Text.trim sources.human)).toOption

/-- The account of the secrets, else the written one. -/
def IdSources.accountId (sources : IdSources) : Option AccountId := do
  let index ← (pathIndex sources.path sources.index).toOption
  match ← (idFromSource L sources.keys index).toOption with
  | some id => some id
  | none => sources.cached

def WalletYaml.sources (wallet : WalletYaml) : IdSources :=
  ⟨wallet.toWalletReadKeys, wallet.derivationPath, wallet.derivationIndex,
    some wallet.accountIdHex, wallet.accountIdHuman⟩

theorem toOption_eq_some {ε α : Type} {x : Except ε α} {a : α} :
    x.toOption = some a ↔ x = .ok a := by
  cases x <;> simp [Except.toOption]

theorem WalletYaml.resolve_ok_iff {wallet : WalletYaml} {id : AccountId} :
    wallet.resolveWalletAccountId L = .ok id ↔ wallet.sources.accountId L = some id := by
  have hcached : (if Text.trim wallet.accountIdHex ≠ [] then
      (parseAccountId (Text.trim wallet.accountIdHex)).mapError
        (TextError.behind "wallet account_id_hex is invalid: ")
      else (parseAcctIdMig (Text.trim wallet.accountIdHuman)).mapError
        (TextError.behind "wallet account_id_human migration error: ")) = .ok id ↔
      wallet.sources.cached = some id := by
    by_cases hblank : Text.trim wallet.accountIdHex ≠ []
    · have hhex : nonBlank wallet.sources.hex = some (Text.trim wallet.accountIdHex) := by
        simp [nonBlank, sources, hblank]
      rw [if_pos hblank, Attempt.mapError_ok_iff, IdSources.cached, hhex]
      exact toOption_eq_some.symm
    · have hhex : nonBlank wallet.sources.hex = none := by
        simpa [nonBlank, sources] using hblank
      rw [if_neg hblank, Attempt.mapError_ok_iff, IdSources.cached, hhex]
      exact toOption_eq_some.symm
  rw [resolveWalletAccountId, IdSources.accountId, acctIdFromSource, parseDerivationIndex]
  change _ ↔ (pathIndex wallet.derivationPath wallet.derivationIndex).toOption.bind _ = some id
  cases pathIndex wallet.derivationPath wallet.derivationIndex with
  | error e => exact iff_of_false (fun h => by cases h) (fun h => by cases h)
  | ok index =>
      change (idFromSource L wallet.toWalletReadKeys index >>= _) = Except.ok id ↔
        (idFromSource L wallet.toWalletReadKeys index).toOption.bind _ = some id
      cases idFromSource L wallet.toWalletReadKeys index with
      | error e => exact iff_of_false (fun h => by cases h) (fun h => by cases h)
      | ok found =>
          cases found with
          | none => exact hcached
          | some id' => exact ⟨fun h => congrArg some (Except.ok.inj h),
              fun h => congrArg Except.ok (Option.some.inj h)⟩

/-! ## What is loaded -/

section Loaded

variable {L} {raw : Text}

theorem fromStr_ok_iff {α : Type} {read : Mapping → Option α} {x : α} :
    fromStr L read raw = .ok x ↔ ∃ m, L.yaml.fromStr raw = some (.mapping m) ∧ read m = some x := by
  rw [fromStr, Attempt.orFail_ok_iff, Option.bind_eq_some_iff]
  constructor
  · rintro ⟨v, hv, hx⟩
    cases v with
    | mapping m => exact ⟨m, hv, hx⟩
    | _ => cases hx
  · rintro ⟨m, hm, hx⟩
    exact ⟨.mapping m, hm, hx⟩

theorem fromStr_toStr {α : Type} {read : Mapping → Option α} {x : α} {m : Mapping}
    (hY : L.yaml.RoundTrips) : fromStr L read (L.yaml.toStr (.mapping m)) = .ok x ↔
      read m = some x := by
  rw [fromStr_ok_iff, hY]
  constructor
  · rintro ⟨m', hm, hx⟩
    rw [Value.mapping.inj (Option.some.inj hm)]
    exact hx
  · intro h
    exact ⟨m, rfl, h⟩

theorem detectSchemaVersion_ok_iff {v : U32} : detectSchemaVersion L raw = .ok v ↔
    ∃ (m : Mapping) (o : Option U32), L.yaml.fromStr raw = some (.mapping m) ∧
      m.optional "schema_version" (readUint 32) = some o ∧ o.getD 2#32 = v := by
  rw [detectSchemaVersion]
  cases hread : fromStr L (fun m => m.optional "schema_version" (readUint 32)) raw with
  | error e =>
      apply iff_of_false (fun h => by cases h)
      rintro ⟨m, o, hm, ho, -⟩
      rw [fromStr_ok_iff.mpr ⟨m, hm, ho⟩] at hread
      cases hread
  | ok o =>
      obtain ⟨m, hm, ho⟩ := fromStr_ok_iff.mp hread
      constructor
      · intro h
        exact ⟨m, o, hm, ho, Except.ok.inj h⟩
      · rintro ⟨m', o', hm', ho', hv⟩
        rw [hm] at hm'
        obtain rfl := Value.mapping.inj (Option.some.inj hm')
        rw [ho] at ho'
        obtain rfl := Option.some.inj ho'
        exact congrArg Except.ok hv

/-- The paths of the rows and, in the open, their ids fit together. -/
structure WalletYamlV3.Valid (L : WalletLib) (wallet : WalletYamlV3) : Prop where
  paths : validateV3DerivationPaths wallet = .ok ()
  master : wallet.mode = "plaintext_dev".toList → validateV3Master L wallet = .ok ()

theorem withDefaultAccount_ok_iff {wallet : WalletYamlV3} {w : WalletYaml} :
    wallet.withDefaultAccount L = .ok w ↔ wallet.Valid L ∧
      ∃ account, defaultV3Account wallet.accounts = some account ∧
        wallet.withAccount account = w := by
  rw [WalletYamlV3.withDefaultAccount]
  simp only [Attempt.except_bind_ok_iff, Attempt.orFail_ok_iff]
  constructor
  · rintro ⟨_, hpaths, account, haccount, h⟩
    by_cases hmode : wallet.mode = "plaintext_dev".toList
    · rw [if_pos hmode] at h
      obtain ⟨_, hmaster, hw⟩ := Attempt.except_bind_ok_iff.mp h
      exact ⟨⟨hpaths, fun _ => hmaster⟩, account, haccount, Except.ok.inj hw⟩
    · rw [if_neg hmode] at h
      exact ⟨⟨hpaths, fun h' => absurd h' hmode⟩, account, haccount, Except.ok.inj h⟩
  · rintro ⟨hvalid, account, haccount, rfl⟩
    refine ⟨(), hvalid.paths, account, haccount, ?_⟩
    by_cases hmode : wallet.mode = "plaintext_dev".toList
    · rw [if_pos hmode, hvalid.master hmode]
      rfl
    · rw [if_neg hmode]
      rfl

theorem normalizeWalletYaml_ok_iff {w w' : WalletYaml} :
    normalizeWalletYaml L w = .ok w' ↔
      ∃ id book ignored, w.sources.accountId L = some id ∧
        domainOfAccountId id = w.domainU16 ∧
        normalizeAddressBookEntries w.addressBook = .ok (book, ignored) ∧
        w.normal id book ignored = w' := by
  rw [normalizeWalletYaml]
  simp only [Attempt.except_bind_ok_iff, Attempt.check_ok_iff, WalletYaml.resolve_ok_iff]
  constructor
  · rintro ⟨id, hid, _, hdomain, ⟨book, ignored⟩, hbook, hw⟩
    exact ⟨id, book, ignored, hid, hdomain, hbook, Except.ok.inj hw⟩
  · rintro ⟨id, book, ignored, hid, hdomain, hbook, rfl⟩
    exact ⟨id, hid, (), hdomain, ⟨book, ignored⟩, hbook, rfl⟩

/-- The wallet of the document that it is migrated to. -/
def WalletYaml.migrated (wallet : WalletYaml) : WalletYaml :=
  { wallet with
    schemaVersion := 3#32
    derivationPath := some (migratedPath wallet)
    ignoredLegacyPrettyEntries := 0 }

/-- A migrated wallet is read back with its account. -/
theorem parse_migrated (hY : L.yaml.RoundTrips) {w : WalletYaml} {id : AccountId}
    (hhex : w.accountIdHex = encodeHex id) (hhuman : w.accountIdHuman = accountIdToHuman id)
    {w' : WalletYaml} :
    (do let migrated ← migrateWalletV2V3 w
        parseWalletYamlV3 L (L.yaml.toStr (.mapping migrated.fields))) = .ok w' ↔
      (w.toV3 (encodeHex id) id).Valid L ∧ w.migrated = w' := by
  have hmigrate : migrateWalletV2V3 w = .ok (w.toV3 (encodeHex id) id) := by
    have hlower : Text.toAsciiLower (Text.trim w.accountIdHex) = encodeHex id := by
      rw [hhex, encodeHex, Text.trim_hexDigits, Text.toAsciiLower_hexDigits]
    have hparse : parseAccountId (encodeHex id) = .ok id := parseAccountId_hexDigits id
    rw [migrateWalletV2V3, hlower]
    change (parseAccountId (encodeHex id) >>= _) = _
    rw [hparse]
    rfl
  have hread : fromStr L WalletYamlV3.read
      (L.yaml.toStr (.mapping (w.toV3 (encodeHex id) id).fields)) =
      .ok (w.toV3 (encodeHex id) id) :=
    (fromStr_toStr hY).mpr (WalletYamlV3.read_fields _)
  have hmigrated : (w.toV3 (encodeHex id) id).withAccount (w.v3Account (encodeHex id) id) =
      w.migrated := by
    rw [WalletYaml.migrated, ← hhex]
    simp only [WalletYamlV3.withAccount, WalletYaml.toV3, WalletYaml.v3Account, ← hhuman]
  rw [hmigrate]
  change (fromStr L WalletYamlV3.read _ >>= fun wallet => wallet.withDefaultAccount L) = _ ↔ _
  rw [hread]
  change (w.toV3 (encodeHex id) id).withDefaultAccount L = _ ↔ _
  rw [withDefaultAccount_ok_iff]
  constructor
  · rintro ⟨hvalid, account, haccount, rfl⟩
    obtain rfl := Option.some.inj haccount
    exact ⟨hvalid, hmigrated.symm⟩
  · rintro ⟨hvalid, rfl⟩
    exact ⟨hvalid, _, rfl, hmigrated⟩

/-- A wallet as it is read has this account and this address book, and can be migrated if it has
to be. -/
structure Loads (L : WalletLib) (schemaVersion : U32) (parsed : WalletYaml) (id : AccountId)
    (book : List AddressBookEntry) (ignored : Nat) : Prop where
  account : parsed.sources.accountId L = some id
  domain : domainOfAccountId id = parsed.domainU16
  normal : normalizeAddressBookEntries parsed.addressBook = .ok (book, ignored)
  valid : schemaVersion = 2#32 →
    ((parsed.normal id book ignored).toV3 (encodeHex id) id).Valid L

/-- The wallet that is loaded. -/
def loaded (schemaVersion : U32) (normal : WalletYaml) : WalletYaml :=
  if schemaVersion = 2#32 then normal.migrated else normal

theorem loadWalletYaml_ok_iff (hY : L.yaml.RoundTrips) {w : WalletYaml} :
    loadWalletYaml L raw = .ok w ↔ ∃ v parsed id book ignored,
      detectSchemaVersion L raw = .ok v ∧ parseSchema L v raw = .ok parsed ∧
      Loads L v parsed id book ignored ∧ loaded v (parsed.normal id book ignored) = w := by
  rw [loadWalletYaml]
  simp only [Attempt.except_bind_ok_iff, normalizeWalletYaml_ok_iff]
  constructor
  · rintro ⟨v, hv, parsed, hparsed, _, ⟨id, book, ignored, hid, hdomain, hbook, rfl⟩, h⟩
    by_cases h2 : v = 2#32
    · rw [if_pos h2, parse_migrated hY rfl rfl] at h
      refine ⟨v, parsed, id, book, ignored, hv, hparsed, ⟨hid, hdomain, hbook, fun _ => h.1⟩, ?_⟩
      rw [loaded, if_pos h2]
      exact h.2
    · rw [if_neg h2] at h
      refine ⟨v, parsed, id, book, ignored, hv, hparsed,
        ⟨hid, hdomain, hbook, fun h' => absurd h' h2⟩, ?_⟩
      rw [loaded, if_neg h2]
      exact Except.ok.inj h
  · rintro ⟨v, parsed, id, book, ignored, hv, hparsed, hloads, rfl⟩
    refine ⟨v, hv, parsed, hparsed, _,
      ⟨id, book, ignored, hloads.account, hloads.domain, hloads.normal, rfl⟩, ?_⟩
    by_cases h2 : v = 2#32
    · rw [if_pos h2, parse_migrated hY rfl rfl, loaded, if_pos h2]
      exact ⟨hloads.valid h2, rfl⟩
    · rw [if_neg h2, loaded, if_neg h2]
      rfl

end Loaded

end Pwm
