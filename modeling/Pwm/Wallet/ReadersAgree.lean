import Pwm.Wallet.NormalBook
import Pwm.Core.Crypto

/-!
# The two readers of a wallet

The reader of headers and the reader of the wallet commands take the same
account, the same domain and index, the same secrets and the same address book
from a file. The count of rows left out is lost on the way of a wallet of schema
2 through a document of schema 3.
-/

namespace Pwm

open Yaml

variable {L : WalletLib} {raw : Text}

/-! ## What both readers take from a document -/

/-- A header and a wallet with the same account, index and address book. -/
structure SameWallet (header : WalletReadHeader) (wallet : WalletYaml) : Prop where
  sources : header.sources = wallet.sources
  domain : header.domainU16 = wallet.domainU16
  book : header.addressBook = wallet.addressBook

theorem WalletYamlV3Account.read_row {v : Value} {row : WalletYamlV3Account}
    (h : Value.record read v = some row) :
    Value.record WalletReadV3Account.read v = some row.toWalletReadV3Account := by
  cases v with
  | mapping m => exact (read_eq_some.mp h).1
  | _ => cases h

/-- The least row is found among the rows without their dates as well. -/
theorem defaultRow_map {α : Type} (row : α → WalletReadV3Account) (rows : List α) :
    defaultRow (fun account => account) (rows.map row) = (defaultRow row rows).map row := by
  cases rows with
  | nil => rfl
  | cons a rest =>
      rw [List.map_cons, defaultRow, defaultRow, Option.map_some, List.foldl_map]
      have hfold : ∀ (rest : List α) (best : α),
          rest.foldl (fun b x => if (row x).before b then row x else b) (row best) =
            row (rest.foldl (fun b x => if (row x).before (row b) then x else b) best) := by
        intro rest
        induction rest with
        | nil => exact fun _ => rfl
        | cons x rest ih =>
            intro best
            rw [List.foldl_cons, List.foldl_cons]
            by_cases hx : (row x).before (row best) = true
            · rw [if_pos hx, if_pos hx]
              exact ih x
            · rw [if_neg hx, if_neg hx]
              exact ih best
      exact congrArg some (hfold rest a)

/-- The same wallet out of one document of schema 1 or 2. -/
theorem sameWallet_root {m : Mapping} {header : WalletReadHeader} {wallet : WalletYaml}
    (hheader : WalletReadHeader.read m = some header) (hwallet : WalletYaml.read m = some wallet) :
    SameWallet header wallet := by
  obtain ⟨hkeys, -, -, hindex, hpath, hdomain, hhex, hhuman, -, hbook, -⟩ :=
    WalletReadHeader.read_eq_some.mp hheader
  obtain ⟨hkeys', -, -, -, -, hindex', hpath', hdomain', -, -, -, hhex', hhuman', hbook', -⟩ :=
    WalletYaml.read_eq_some.mp hwallet
  have hsecrets := (WalletKeys.read_eq_some.mp hkeys').1
  have hhexes := optional_of_required rfl hhex'
  refine ⟨?_, ?_, ?_⟩
  · rw [WalletReadHeader.sources, WalletYaml.sources, IdSources.mk.injEq]
    exact ⟨Option.some.inj (hkeys.symm.trans hsecrets), Option.some.inj (hpath.symm.trans hpath'),
      Option.some.inj (hindex.symm.trans hindex'), Option.some.inj (hhex.symm.trans hhexes),
      Option.some.inj (hhuman.symm.trans hhuman')⟩
  · exact Option.some.inj (hdomain.symm.trans hdomain')
  · exact Option.some.inj (hbook.symm.trans hbook')

/-- The same wallet out of one document of schema 3. -/
theorem sameWallet_rows {m : Mapping} {parsed : WalletReadV3Header} {wallet : WalletYamlV3}
    {header : WalletReadHeader} {w : WalletYaml}
    (hparsed : WalletReadV3Header.read m = some parsed)
    (hwallet : WalletYamlV3.read m = some wallet)
    (hheader : parsed.withDefaultAccount = .ok header)
    (hw : wallet.withDefaultAccount L = .ok w) : SameWallet header w := by
  obtain ⟨hkeys, -, -, -, haccounts, hbook⟩ := WalletReadV3Header.read_eq_some.mp hparsed
  obtain ⟨hkeys', -, -, -, -, -, haccounts', hbook'⟩ := WalletYamlV3.read_eq_some.mp hwallet
  have hsecrets := (WalletKeys.read_eq_some.mp hkeys').1
  have hrows : parsed.accounts =
      wallet.accounts.map WalletYamlV3Account.toWalletReadV3Account := by
    obtain ⟨v, hv, hread⟩ := Option.bind_eq_some_iff.mp haccounts
    obtain ⟨v', hv', hread'⟩ := Option.bind_eq_some_iff.mp haccounts'
    obtain rfl := Option.some.inj (hv.symm.trans hv')
    have hmap := readSeq_map_of (fun _ _ => WalletYamlV3Account.read_row) hread'
    exact Option.some.inj (hread.symm.trans hmap)
  obtain ⟨-, account, haccount, rfl⟩ := withDefaultAccount_ok_iff.mp hw
  rw [WalletReadV3Header.withDefaultAccount] at hheader
  simp only [Attempt.except_bind_ok_iff, Attempt.orFail_ok_iff] at hheader
  obtain ⟨-, -, row, hrow, hheader⟩ := hheader
  obtain rfl := Except.ok.inj hheader
  have hdefault : account.toWalletReadV3Account = row := by
    rw [hrows, defaultRow_map] at hrow
    have hmap : (defaultV3Account wallet.accounts).map
        WalletYamlV3Account.toWalletReadV3Account = some row := hrow
    rw [haccount] at hmap
    exact Option.some.inj hmap
  have hsame : parsed.toWalletReadKeys = wallet.toWalletReadKeys :=
    Option.some.inj (hkeys.symm.trans hsecrets)
  refine ⟨?_, ?_, ?_⟩
  · rw [WalletReadHeader.sources, WalletYaml.sources, IdSources.mk.injEq, ← hdefault]
    exact ⟨hsame, rfl, rfl, rfl, rfl⟩
  · rw [← hdefault]
    rfl
  · exact Option.some.inj (hbook.symm.trans hbook')

theorem parseWalletReadHeader_root {v : U32} (hv : detectSchemaVersion L raw = .ok v)
    (h3 : v ≠ 3#32) : parseWalletReadHeader L raw = fromStr L WalletReadHeader.read raw := by
  rw [parseWalletReadHeader, hv]
  exact if_neg h3

theorem parseWalletReadHeader_rows (hv : detectSchemaVersion L raw = .ok 3#32) :
    parseWalletReadHeader L raw =
      fromStr L WalletReadV3Header.read raw >>= WalletReadV3Header.withDefaultAccount := by
  rw [parseWalletReadHeader, hv]
  change (if (3#32 : U32) = 3#32 then parseWalletV3Hdr L raw
    else fromStr L WalletReadHeader.read raw) = _
  rw [if_pos rfl]
  rfl

theorem parseSchema_root {v : U32} (h3 : v ≠ 3#32) :
    parseSchema L v raw = fromStr L WalletYaml.read raw :=
  if_neg h3

theorem sameWallet_of_parse {v : U32} {header : WalletReadHeader} {wallet : WalletYaml}
    (hv : detectSchemaVersion L raw = .ok v) (hheader : parseWalletReadHeader L raw = .ok header)
    (hwallet : parseSchema L v raw = .ok wallet) : SameWallet header wallet := by
  rw [parseWalletReadHeader, hv] at hheader
  change (if v = 3#32 then parseWalletV3Hdr L raw else fromStr L WalletReadHeader.read raw) =
    .ok header at hheader
  rw [parseSchema] at hwallet
  by_cases h3 : v = 3#32
  · rw [if_pos h3] at hheader hwallet
    rw [parseWalletV3Hdr, Attempt.except_bind_ok_iff] at hheader
    rw [parseWalletYamlV3, Attempt.except_bind_ok_iff] at hwallet
    obtain ⟨parsed, hparsed, hheader⟩ := hheader
    obtain ⟨w3, hw3, hwallet⟩ := hwallet
    obtain ⟨m, hm, hparsed⟩ := fromStr_ok_iff.mp hparsed
    obtain ⟨m', hm', hw3⟩ := fromStr_ok_iff.mp hw3
    obtain rfl := Value.mapping.inj (Option.some.inj (hm.symm.trans hm'))
    exact sameWallet_rows hparsed hw3 hheader hwallet
  · rw [if_neg h3] at hheader hwallet
    obtain ⟨m, hm, hheader⟩ := fromStr_ok_iff.mp hheader
    obtain ⟨m', hm', hwallet⟩ := fromStr_ok_iff.mp hwallet
    obtain rfl := Value.mapping.inj (Option.some.inj (hm.symm.trans hm'))
    exact sameWallet_root hheader hwallet

/-! ## Agreement -/

/-- Both readers give one account, under one domain and index, with the same secrets, the same
address book and the same count of rows left out. -/
structure ReadersAgree (load : WalletReadLoad) (wallet : WalletYaml) : Prop where
  account : ∃ id, parseAcctIdMig load.header.accountIdHuman = .ok id ∧
    parseAcctIdMig wallet.accountIdHuman = .ok id
  domain : load.header.domainU16 = wallet.domainU16
  index : load.header.derivationIndex = wallet.derivationIndex
  keys : load.header.toWalletReadKeys = wallet.toWalletReadKeys
  book : load.header.addressBook = wallet.addressBook
  ignored : load.ignoredLegacyPrettyEntries = wallet.ignoredLegacyPrettyEntries

/-- The rows of the address book of a file. -/
def addressBookRows (L : WalletLib) (raw : Text) : Except TextError (List AddressBookEntry) :=
  fromStr L (fun m => m.defaulted "address_book" (readSeq AddressBookEntry.read) []) raw

theorem addressBookRows_of_parse {header : WalletReadHeader}
    (hheader : parseWalletReadHeader L raw = .ok header) :
    addressBookRows L raw = .ok header.addressBook := by
  obtain ⟨v, -, hheader⟩ := Attempt.except_bind_ok_iff.mp hheader
  by_cases h3 : v = 3#32
  · rw [if_pos h3, parseWalletV3Hdr, Attempt.except_bind_ok_iff] at hheader
    obtain ⟨parsed, hparsed, hheader⟩ := hheader
    obtain ⟨m, hm, hparsed⟩ := fromStr_ok_iff.mp hparsed
    obtain ⟨-, -, -, -, -, hbook⟩ := WalletReadV3Header.read_eq_some.mp hparsed
    rw [WalletReadV3Header.withDefaultAccount] at hheader
    simp only [Attempt.except_bind_ok_iff] at hheader
    obtain ⟨-, -, account, -, hheader⟩ := hheader
    obtain rfl := Except.ok.inj hheader
    exact fromStr_ok_iff.mpr ⟨m, hm, hbook⟩
  · rw [if_neg h3] at hheader
    obtain ⟨m, hm, hheader⟩ := fromStr_ok_iff.mp hheader
    obtain ⟨-, -, -, -, -, -, -, -, -, hbook, -⟩ := WalletReadHeader.read_eq_some.mp hheader
    exact fromStr_ok_iff.mpr ⟨m, hm, hbook⟩

/-- Both readers agree on a file that both accept exactly when it is not of schema 2, or has no row
in the pretty form. -/
theorem walletReaders_agree_iff (L : WalletLib) (hY : L.yaml.RoundTrips) {raw file : Text}
    {load : WalletReadLoad} {wallet : WalletYaml}
    (hload : loadWalletReadHeader L raw false = .ok (load, file))
    (hwallet : loadWalletYaml L raw = .ok wallet) :
    ReadersAgree load wallet ↔ (detectSchemaVersion L raw = .ok 2#32 →
      ∀ rows, addressBookRows L raw = .ok rows → ∀ entry ∈ rows, entry.pretty = false) := by
  obtain ⟨header, id, book, ignored, hheader, hloads, rfl, -⟩ :=
    loadWalletReadHeader_ok_iff.mp hload
  obtain ⟨v, parsed, id', book', ignored', hv, hparsed, hloads', rfl⟩ :=
    (loadWalletYaml_ok_iff hY).mp hwallet
  have hsame := sameWallet_of_parse hv hheader hparsed
  have hid : id = id' := by
    have haccount := hloads.account
    rw [hsame.sources, hloads'.account] at haccount
    exact (Option.some.inj haccount).symm
  have hnormal : (book, ignored) = (book', ignored') := by
    have hbook := hloads.normal
    rw [hsame.book, hloads'.normal] at hbook
    exact (Except.ok.inj hbook).symm
  obtain ⟨rfl, rfl⟩ := Prod.mk.inj hnormal
  subst hid
  have hrows := addressBookRows_of_parse hheader
  have hcount := (normalizeAddressBookEntries_ok_iff.mp hloads.normal).2
  have hignored : ignored = (loaded v (parsed.normal id book ignored)).ignoredLegacyPrettyEntries ↔
      (v = 2#32 → ignored = 0) := by
    rw [loaded]
    by_cases h2 : v = 2#32
    · rw [if_pos h2]
      exact ⟨fun h _ => h, fun h => h h2⟩
    · rw [if_neg h2]
      exact ⟨fun _ h => absurd h h2, fun _ => rfl⟩
  have hzero : ignored = 0 ↔ ∀ rows, addressBookRows L raw = .ok rows →
      ∀ entry ∈ rows, entry.pretty = false := by
    rw [← hcount, List.countP_eq_zero, hrows]
    constructor
    · intro h rows hr entry hentry
      rw [← Except.ok.inj hr] at hentry
      exact Bool.eq_false_iff.mpr (h entry hentry)
    · intro h entry hentry
      exact Bool.eq_false_iff.mp (h _ rfl entry hentry)
  have hschema : detectSchemaVersion L raw = .ok 2#32 ↔ v = 2#32 := by
    rw [hv, Except.ok.injEq]
  rw [hschema, ← hzero, ← hignored]
  have hfields : (loaded v (parsed.normal id book ignored)).accountIdHuman = accountIdToHuman id ∧
      (loaded v (parsed.normal id book ignored)).domainU16 = parsed.domainU16 ∧
      (loaded v (parsed.normal id book ignored)).derivationIndex = parsed.derivationIndex ∧
      (loaded v (parsed.normal id book ignored)).toWalletReadKeys = parsed.toWalletReadKeys ∧
      (loaded v (parsed.normal id book ignored)).addressBook = book := by
    rw [loaded]
    by_cases h2 : v = 2#32
    · rw [if_pos h2]
      exact ⟨rfl, rfl, rfl, rfl, rfl⟩
    · rw [if_neg h2]
      exact ⟨rfl, rfl, rfl, rfl, rfl⟩
  obtain ⟨hhuman, hdomain, hindex, hkeys, hbook⟩ := hfields
  constructor
  · exact fun h => h.ignored
  · intro h
    refine ⟨⟨id, parseAcctIdChecked_human false id, ?_⟩, ?_, ?_, ?_, ?_, h⟩
    · rw [hhuman]
      exact parseAcctIdChecked_human false id
    · exact hsame.domain.trans hdomain.symm
    · exact (congrArg IdSources.index hsame.sources).trans hindex.symm
    · exact (congrArg IdSources.keys hsame.sources).trans hkeys.symm
    · exact hbook.symm

/-! ## A wallet of schema 2 with a pretty row -/

namespace LegacyRow

def lib : WalletLib :=
  ⟨flowSerde, Crypto.ofTables [] [], fun _ _ => 0#256⟩

theorem roundTrips : lib.yaml.RoundTrips :=
  flowSerde_roundTrips

def owner : AccountId :=
  0x2c7e0000000000000000000000000000000000000000000000000000000000aa#256

def wallet : WalletYaml where
  masterSeedHex := none
  signingKeyHex := none
  encryptedPayloadB64 := some "q80=".toList
  kdfSaltB64 := some "AQI=".toList
  aeadNonceB64 := some "AwQ=".toList
  kdf := some "pbkdf2-hmac-sha256".toList
  kdfIters := some 100000#32
  masterSeedB64 := none
  signingKeyB64 := none
  verifyingKeyHex := none
  verifyingKeyB64 := none
  schemaVersion := 2#32
  mode := "encrypted".toList
  createdAtUnixSec := 1700000000#64
  countryCodeLabel := none
  derivationIndex := 7#32
  derivationPath := some "m/0/7".toList
  domainU16 := 0x2c7e#16
  flagsMaskU32 := 1023#32
  expectedFlagsU32 := 0#32
  flagsDerivedU32 := 0#32
  accountIdHex := encodeHex owner
  accountIdHuman := accountIdToHuman owner
  addressBook := [.addressOnly (accountIdToHuman owner)]
  ignoredLegacyPrettyEntries := 0

def file : Text :=
  lib.yaml.toStr (.mapping wallet.fields)

def header : WalletReadHeader where
  toWalletReadKeys := wallet.toWalletReadKeys
  schemaVersion := 2#32
  mode := wallet.mode
  derivationIndex := wallet.derivationIndex
  derivationPath := wallet.derivationPath
  domainU16 := wallet.domainU16
  accountIdHex := some wallet.accountIdHex
  accountIdHuman := wallet.accountIdHuman
  ownedAccounts := []
  addressBook := wallet.addressBook
  ignoredLegacyPrettyEntries := 0

theorem schema : detectSchemaVersion lib file = .ok 2#32 := by
  have hraw : lib.yaml.fromStr file = some (.mapping wallet.fields) := by
    rw [file]
    exact roundTrips _
  have hversion : wallet.fields.optional "schema_version" (readUint 32) = some (some 2#32) := by
    decide
  exact detectSchemaVersion_ok_iff.mpr ⟨_, _, hraw, hversion, rfl⟩

theorem account : wallet.sources.accountId lib = some owner := by
  decide

theorem normal_book : normalizeAddressBookEntries wallet.addressBook = .ok ([], 1) := by
  decide

theorem header_loads : loadWalletReadHeader lib file false =
    .ok (⟨header.normal owner [] 1, true, 1⟩, file) := by
  have hparsed : parseWalletReadHeader lib file = .ok header := by
    have hread : WalletReadHeader.read wallet.fields = some header := by decide
    exact (parseWalletReadHeader_root schema (by decide)).trans
      ((fromStr_toStr roundTrips).mpr hread)
  have hstale : header.stale owner = true := by decide
  have hloads : HeaderLoads lib header owner [] 1 := ⟨account, by decide, normal_book⟩
  exact loadWalletReadHeader_ok_iff.mpr
    ⟨header, owner, [], 1, hparsed, hloads, by rw [hstale], rfl⟩

theorem wallet_loads : loadWalletYaml lib file = .ok (wallet.normal owner [] 1).migrated := by
  have hparsed : parseSchema lib 2#32 file = .ok wallet :=
    (parseSchema_root (by decide)).trans ((fromStr_toStr roundTrips).mpr wallet.read_fields)
  have hpaths : validateV3DerivationPaths
      ((wallet.normal owner [] 1).toV3 (encodeHex owner) owner) = .ok () := by decide
  have hmode : ¬ wallet.mode = "plaintext_dev".toList := by decide
  have hloads : Loads lib 2#32 wallet owner [] 1 :=
    ⟨account, by decide, normal_book, fun _ => ⟨hpaths, fun h => absurd h hmode⟩⟩
  exact (loadWalletYaml_ok_iff roundTrips).mpr
    ⟨2#32, wallet, owner, [], 1, schema, hparsed, hloads, rfl⟩

theorem agree_iff : ReadersAgree ⟨header.normal owner [] 1, true, 1⟩
      (wallet.normal owner [] 1).migrated ↔ (detectSchemaVersion lib file = .ok 2#32 →
        ∀ rows, addressBookRows lib file = .ok rows → ∀ entry ∈ rows, entry.pretty = false) :=
  walletReaders_agree_iff lib roundTrips header_loads wallet_loads

/-- The header counts the row left out, the loaded wallet does not. -/
theorem readers_disagree : ¬ ∀ (L : WalletLib) (raw file : Text) (load : WalletReadLoad)
    (wallet : WalletYaml), L.yaml.RoundTrips →
    loadWalletReadHeader L raw false = .ok (load, file) → loadWalletYaml L raw = .ok wallet →
    ReadersAgree load wallet := by
  intro h
  have hagree := h lib file file _ _ roundTrips header_loads wallet_loads
  have hcount : 1 = 0 := hagree.ignored
  omega

end LegacyRow

end Pwm
