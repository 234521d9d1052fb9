import Pwm.Wallet.ReadersAgree

/-!
# Upgrading the header of a wallet

The account and the address book of a header are written back to the file. A
second load finds nothing to change when the account was written where it is
read from; the cached hexadecimal id is left as it was.
-/

namespace Pwm

open Yaml AddressBookEntry

variable {L : WalletLib} {raw : Text}

/-! ## The file that is written -/

/-- The entries of a file with this account and these rows at its root. -/
def upgradedRoot (m : Mapping) (human : Text) (book : List AddressBookEntry) : Mapping :=
  (m.insert "account_id_human" (.string human)).insert "address_book"
    (.sequence (book.map write))

theorem get_upgradedRoot {m : Mapping} {human : Text} {book : List AddressBookEntry}
    {name : String} (hhuman : name ≠ "account_id_human") (hbook : name ≠ "address_book") :
    (upgradedRoot m human book).get name = m.get name := by
  rw [upgradedRoot, get_insert, if_neg hbook.symm, get_insert, if_neg hhuman.symm]

theorem human_upgradedRoot (m : Mapping) (human : Text) (book : List AddressBookEntry) :
    (upgradedRoot m human book).required "account_id_human" Value.asStr = some human := by
  apply required_of_get writes_string
  rw [upgradedRoot, get_insert, if_neg (by decide), get_insert, if_pos rfl]

theorem book_upgradedRoot (m : Mapping) (human : Text) (book : List AddressBookEntry) :
    (upgradedRoot m human book).defaulted "address_book" (readSeq read) [] = some book := by
  refine defaulted_of_get [] ?_ (readSeq_map AddressBookEntry.writes book)
  rw [upgradedRoot, get_insert, if_pos rfl]

theorem keys_upgradedRoot (m : Mapping) (human : Text) (book : List AddressBookEntry) :
    WalletReadKeys.read (upgradedRoot m human book) = WalletReadKeys.read m := by
  have hget : ∀ name ∈ WalletKeys.names, (upgradedRoot m human book).get name = m.get name := by
    intro name hname
    apply get_upgradedRoot
    · rintro rfl
      exact absurd hname (by decide)
    · rintro rfl
      exact absurd hname (by decide)
  rw [WalletReadKeys.read, WalletReadKeys.read,
    optional_congr (hget "master_seed_hex" (by decide)),
    optional_congr (hget "signing_key_hex" (by decide)),
    optional_congr (hget "encrypted_payload_b64" (by decide)),
    optional_congr (hget "kdf_salt_b64" (by decide)),
    optional_congr (hget "aead_nonce_b64" (by decide)),
    optional_congr (hget "kdf" (by decide)),
    optional_congr (hget "kdf_iters" (by decide))]

theorem read_upgradedRoot {m : Mapping} {parsed : WalletReadHeader}
    (h : WalletReadHeader.read m = some parsed) (human : Text) (book : List AddressBookEntry) :
    WalletReadHeader.read (upgradedRoot m human book) =
      some { parsed with accountIdHuman := human, addressBook := book } := by
  obtain ⟨hkeys, hversion, hmode, hindex, hpath, hdomain, hhex, -, howned, -, hignored⟩ :=
    WalletReadHeader.read_eq_some.mp h
  have hget : ∀ name, name ≠ "account_id_human" → name ≠ "address_book" →
      (upgradedRoot m human book).get name = m.get name := fun _ => get_upgradedRoot
  refine WalletReadHeader.read_eq_some.mpr ⟨(keys_upgradedRoot m human book).trans hkeys, ?_, ?_,
    ?_, ?_, ?_, ?_, human_upgradedRoot m human book, ?_, book_upgradedRoot m human book, hignored⟩
  · exact (defaulted_congr (hget _ (by decide) (by decide))).trans hversion
  · exact (required_congr (hget _ (by decide) (by decide))).trans hmode
  · exact (required_congr (hget _ (by decide) (by decide))).trans hindex
  · exact (optional_congr (hget _ (by decide) (by decide))).trans hpath
  · exact (required_congr (hget _ (by decide) (by decide))).trans hdomain
  · exact (optional_congr (hget _ (by decide) (by decide))).trans hhex
  · exact (defaulted_congr (hget _ (by decide) (by decide))).trans howned

/-- Of a document of schema 3 the rows of the address book change, and nothing else. -/
theorem read_v3_upgradedRoot {m : Mapping} {parsed : WalletReadV3Header}
    (h : WalletReadV3Header.read m = some parsed) (human : Text)
    (book : List AddressBookEntry) : WalletReadV3Header.read (upgradedRoot m human book) =
      some { parsed with addressBook := book } := by
  obtain ⟨hkeys, hmode, hversion, hactive, haccounts, -⟩ := WalletReadV3Header.read_eq_some.mp h
  have hget : ∀ name, name ≠ "account_id_human" → name ≠ "address_book" →
      (upgradedRoot m human book).get name = m.get name := fun _ => get_upgradedRoot
  refine WalletReadV3Header.read_eq_some.mpr ⟨(keys_upgradedRoot m human book).trans hkeys, ?_, ?_,
    ?_, ?_, book_upgradedRoot m human book⟩
  · exact (required_congr (hget _ (by decide) (by decide))).trans hmode
  · exact (optional_congr (hget _ (by decide) (by decide))).trans hversion
  · exact (optional_congr (hget _ (by decide) (by decide))).trans hactive
  · exact (required_congr (hget _ (by decide) (by decide))).trans haccounts

theorem rewrite_ok_iff {normalized : WalletReadHeader} {file : Text} :
    rewriteWalletHeaderFields L raw normalized = .ok file ↔
      ∃ m, L.yaml.fromStr raw = some (.mapping m) ∧
        L.yaml.toStr (.mapping (upgradedRoot m normalized.accountIdHuman normalized.addressBook)) =
          file := by
  rw [rewriteWalletHeaderFields]
  cases hraw : L.yaml.fromStr raw with
  | none => exact iff_of_false (fun h => by cases h) (fun h => by cases h.choose_spec.1)
  | some v =>
      cases v with
      | mapping m =>
          constructor
          · intro h
            exact ⟨m, rfl, Except.ok.inj h⟩
          · rintro ⟨m', hm', rfl⟩
            rw [Value.mapping.inj (Option.some.inj hm')]
            rfl
      | _ => exact iff_of_false (fun h => by cases h) (fun h => by cases h.choose_spec.1)

/-- The header that is read from the file written. -/
def WalletReadHeader.rewritten (v : U32) (parsed : WalletReadHeader) (human : Text)
    (book : List AddressBookEntry) : WalletReadHeader :=
  if v = 3#32 then { parsed with addressBook := book }
  else { parsed with accountIdHuman := human, addressBook := book }

theorem parse_upgraded (hY : L.yaml.RoundTrips) {v : U32} {parsed : WalletReadHeader} {m : Mapping}
    (hv : detectSchemaVersion L raw = .ok v) (hparsed : parseWalletReadHeader L raw = .ok parsed)
    (hraw : L.yaml.fromStr raw = some (.mapping m)) (human : Text) (book : List AddressBookEntry) :
    parseWalletReadHeader L (L.yaml.toStr (.mapping (upgradedRoot m human book))) =
      .ok (parsed.rewritten v human book) := by
  have hversion : detectSchemaVersion L
      (L.yaml.toStr (.mapping (upgradedRoot m human book))) = .ok v := by
    obtain ⟨m', o, hm', ho, hv⟩ := detectSchemaVersion_ok_iff.mp hv
    obtain rfl := Value.mapping.inj (Option.some.inj (hraw.symm.trans hm'))
    refine detectSchemaVersion_ok_iff.mpr ⟨_, o, hY _, ?_, hv⟩
    exact (optional_congr (get_upgradedRoot (by decide) (by decide))).trans ho
  by_cases h3 : v = 3#32
  · rw [WalletReadHeader.rewritten, if_pos h3, parseWalletReadHeader, hversion]
    rw [parseWalletReadHeader, hv] at hparsed
    change (if v = 3#32 then parseWalletV3Hdr L raw else _) = .ok parsed at hparsed
    change (if v = 3#32 then parseWalletV3Hdr L _ else _) = .ok _
    rw [if_pos h3, parseWalletV3Hdr, Attempt.except_bind_ok_iff] at hparsed ⊢
    obtain ⟨rows, hrows, hdefault⟩ := hparsed
    obtain ⟨m', hm', hread⟩ := fromStr_ok_iff.mp hrows
    obtain rfl := Value.mapping.inj (Option.some.inj (hraw.symm.trans hm'))
    refine ⟨_, (fromStr_toStr hY).mpr (read_v3_upgradedRoot hread human book), ?_⟩
    rw [WalletReadV3Header.withDefaultAccount] at hdefault ⊢
    simp only [Attempt.except_bind_ok_iff, Attempt.orFail_ok_iff] at hdefault ⊢
    obtain ⟨_, hpaths, account, haccount, hout⟩ := hdefault
    obtain rfl := Except.ok.inj hout
    exact ⟨(), hpaths, account, haccount, rfl⟩
  · rw [WalletReadHeader.rewritten, if_neg h3, parseWalletReadHeader_root hversion h3]
    rw [parseWalletReadHeader_root hv h3] at hparsed
    obtain ⟨m', hm', hread⟩ := fromStr_ok_iff.mp hparsed
    obtain rfl := Value.mapping.inj (Option.some.inj (hraw.symm.trans hm'))
    exact (fromStr_toStr hY).mpr (read_upgradedRoot hread human book)

/-! ## The second load -/

theorem trim_human (id : AccountId) : Text.trim (accountIdToHuman id) = accountIdToHuman id :=
  trim_render id

/-- The account does not change when its readable form is written. -/
theorem accountId_of_human {sources : IdSources} {id : AccountId}
    (h : sources.accountId L = some id) :
    IdSources.accountId L { sources with human := accountIdToHuman id } = some id := by
  rw [IdSources.accountId] at h ⊢
  obtain ⟨index, hindex, h⟩ := Option.bind_eq_some_iff.mp h
  obtain ⟨found, hfound, h⟩ := Option.bind_eq_some_iff.mp h
  refine Option.bind_eq_some_iff.mpr ⟨index, hindex, ?_⟩
  refine Option.bind_eq_some_iff.mpr ⟨found, hfound, ?_⟩
  cases found with
  | some id' => exact h
  | none =>
      change sources.cached = some id at h
      change IdSources.cached { sources with human := accountIdToHuman id } = some id
      cases hhex : nonBlank sources.hex with
      | some hex =>
          simp only [IdSources.cached, hhex] at h ⊢
          exact h
      | none =>
          simp only [IdSources.cached, hhex, trim_human]
          exact toOption_eq_some.mpr (parseAcctIdChecked_human false id)

theorem not_stale_of_bech32dx {book : List AddressBookEntry}
    (h : ∀ row ∈ book, ∃ id, row.addressStr = accountIdToBech32dx id) :
    book.any AddressBookEntry.stale = false := by
  apply List.any_eq_false.mpr
  intro row hrow
  obtain ⟨id, hid⟩ := h row hrow
  rw [stale, pretty_of_bech32dx hid, accountId_of_bech32dx hid, Bool.false_or, hid, trim_bech32dx]
  simp

/-- The header of the file written has the account and the address book of the first one, and is
stale exactly when it does not read the account that was written. -/
theorem headerLoads_rewritten {v : U32} {parsed : WalletReadHeader} {id : AccountId}
    {book : List AddressBookEntry} {ignored : Nat} (h : HeaderLoads L parsed id book ignored) :
    HeaderLoads L (parsed.rewritten v (accountIdToHuman id) book) id book 0 ∧
      (parsed.rewritten v (accountIdToHuman id) book).stale id =
        decide (v = 3#32 ∧ parsed.accountIdHuman ≠ accountIdToHuman id) := by
  have hrows : ∀ row ∈ book, ∃ id, row.addressStr = accountIdToBech32dx id := fun _ hrow =>
    normal_rows h.normal hrow
  have hfresh := not_stale_of_bech32dx hrows
  by_cases h3 : v = 3#32
  · rw [WalletReadHeader.rewritten, if_pos h3]
    refine ⟨⟨h.account, h.domain, normalize_bech32dx hrows⟩, ?_⟩
    change (decide (parsed.accountIdHuman ≠ accountIdToHuman id) || book.any stale) = _
    rw [hfresh, Bool.or_false]
    exact decide_eq_decide.mpr ⟨fun hne => ⟨h3, hne⟩, fun hne => hne.2⟩
  · rw [WalletReadHeader.rewritten, if_neg h3]
    refine ⟨⟨accountId_of_human h.account, h.domain, normalize_bech32dx hrows⟩, ?_⟩
    change (decide (accountIdToHuman id ≠ accountIdToHuman id) || book.any stale) = _
    rw [hfresh, Bool.or_false]
    exact decide_eq_decide.mpr ⟨fun hne => absurd rfl hne, fun hne => absurd hne.1 h3⟩

/-! ## Convergence -/

/-- The ids of a loaded header name one account, its flag is down only if nothing was changed, and
behind a load that upgrades the file another load changes nothing. -/
structure UpgradesHeader (L : WalletLib) (raw : Text) (load : WalletReadLoad) : Prop where
  coherent : ∀ hex, nonBlank load.header.accountIdHex = some hex →
    ∃ id, parseAcctIdMig load.header.accountIdHuman = .ok id ∧ parseAccountId hex = .ok id
  honest : load.upgradedOnLoad = false → ∀ parsed, parseWalletReadHeader L raw = .ok parsed →
    load.header =
      { parsed with ignoredLegacyPrettyEntries := load.header.ignoredLegacyPrettyEntries }
  settled : ∃ file load' file', loadWalletReadHeader L raw true = .ok (load, file) ∧
    loadWalletReadHeader L file true = .ok (load', file') ∧
    load'.header.accountIdHuman = load.header.accountIdHuman ∧
    load'.header.addressBook = load.header.addressBook ∧ load'.upgradedOnLoad = false

/-- The cached hexadecimal id names the account, addresses stand without white space where nothing
else is stale, and in schema 3 the readable id of the row is that of the account. -/
structure HeaderUpToDate (v : U32) (parsed : WalletReadHeader) (id : AccountId) : Prop where
  hex : ∀ hex, nonBlank parsed.accountIdHex = some hex → parseAccountId hex = .ok id
  blanks : parsed.stale id = false →
    ∀ entry ∈ parsed.addressBook, Text.trim entry.addressStr = entry.addressStr
  pretty : v = 3#32 → parsed.accountIdHuman = accountIdToHuman id

/-- A file that is read as a header can be rewritten. -/
theorem upgradedFile_of_parse {parsed : WalletReadHeader}
    (hparsed : parseWalletReadHeader L raw = .ok parsed) (upgrade : Bool)
    (normalized : WalletReadHeader) : ∃ file, upgradedFile L raw upgrade normalized = .ok file := by
  obtain ⟨v, hv, -⟩ := Attempt.except_bind_ok_iff.mp hparsed
  obtain ⟨m, _, hm, -⟩ := detectSchemaVersion_ok_iff.mp hv
  rw [upgradedFile]
  by_cases hupgrade : upgrade = true
  · rw [if_pos hupgrade]
    exact ⟨_, rewrite_ok_iff.mpr ⟨m, hm, rfl⟩⟩
  · rw [if_neg hupgrade]
    exact ⟨_, rfl⟩

/-- What is loaded from the file that an upgrading load leaves. -/
theorem second_load (hY : L.yaml.RoundTrips) {v : U32} {parsed : WalletReadHeader} {id : AccountId}
    {book : List AddressBookEntry} {ignored : Nat} {file : Text}
    (hv : detectSchemaVersion L raw = .ok v) (hparsed : parseWalletReadHeader L raw = .ok parsed)
    (hloads : HeaderLoads L parsed id book ignored)
    (hfile : upgradedFile L raw (parsed.stale id) (parsed.normal id book ignored) = .ok file) :
    ∃ load' file', loadWalletReadHeader L file true = .ok (load', file') ∧
      load'.header.accountIdHuman = accountIdToHuman id ∧ load'.header.addressBook = book ∧
      load'.upgradedOnLoad = decide (v = 3#32 ∧ parsed.accountIdHuman ≠ accountIdToHuman id) := by
  rw [upgradedFile] at hfile
  by_cases hstale : parsed.stale id = true
  · rw [if_pos hstale] at hfile
    obtain ⟨m', hm', rfl⟩ := rewrite_ok_iff.mp hfile
    have hagain := parse_upgraded hY hv hparsed hm' (accountIdToHuman id) book
    obtain ⟨hsecond, hflag⟩ := headerLoads_rewritten (v := v) hloads
    obtain ⟨file', hfile'⟩ := upgradedFile_of_parse hagain
      (true && (parsed.rewritten v (accountIdToHuman id) book).stale id)
      ((parsed.rewritten v (accountIdToHuman id) book).normal id book 0)
    have hload := loadWalletReadHeader_ok_iff.mpr
      ⟨_, id, book, 0, hagain, hsecond, rfl, hfile'⟩
    exact ⟨_, file', hload, rfl, rfl, hflag⟩
  · rw [if_neg hstale] at hfile
    obtain rfl := Except.ok.inj hfile
    have hfresh := Bool.eq_false_iff.mpr hstale
    have hagain : upgradedFile L raw (true && parsed.stale id) (parsed.normal id book ignored) =
        .ok raw := by
      rw [hfresh]
      rfl
    have hload := loadWalletReadHeader_ok_iff.mpr
      ⟨parsed, id, book, ignored, hparsed, hloads, rfl, hagain⟩
    refine ⟨_, raw, hload, rfl, rfl, ?_⟩
    have hhuman : ¬ parsed.accountIdHuman ≠ accountIdToHuman id := by
      rw [WalletReadHeader.stale, Bool.or_eq_false_iff, decide_eq_false_iff_not] at hfresh
      exact hfresh.1
    change parsed.stale id = _
    rw [hfresh]
    exact (decide_eq_false fun h => hhuman h.2).symm

/-- A header is coherent, honest and settled exactly when it was up to date where the upgrade does
not reach. -/
theorem headerUpgrade_iff (L : WalletLib) (hY : L.yaml.RoundTrips) {raw file : Text} {auto : Bool}
    {load : WalletReadLoad} (hload : loadWalletReadHeader L raw auto = .ok (load, file)) :
    UpgradesHeader L raw load ↔ ∀ v parsed id, detectSchemaVersion L raw = .ok v →
      parseWalletReadHeader L raw = .ok parsed → parsed.sources.accountId L = some id →
      HeaderUpToDate v parsed id := by
  obtain ⟨parsed, id, book, ignored, hparsed, hloads, rfl, -⟩ :=
    loadWalletReadHeader_ok_iff.mp hload
  obtain ⟨v, hv, -⟩ := Attempt.except_bind_ok_iff.mp hparsed
  obtain ⟨upgraded, hfile⟩ := upgradedFile_of_parse hparsed (parsed.stale id)
    (parsed.normal id book ignored)
  have hfirst : loadWalletReadHeader L raw true =
      .ok (⟨parsed.normal id book ignored, parsed.stale id, ignored⟩, upgraded) :=
    loadWalletReadHeader_ok_iff.mpr ⟨parsed, id, book, ignored, hparsed, hloads, rfl, hfile⟩
  obtain ⟨load', file', hagain, hhuman', hbook', hflag'⟩ := second_load hY hv hparsed hloads hfile
  constructor
  · intro h v' parsed' id' hv' hparsed' hid'
    obtain rfl := Except.ok.inj (hv.symm.trans hv')
    obtain rfl := Except.ok.inj (hparsed.symm.trans hparsed')
    obtain rfl := Option.some.inj (hloads.account.symm.trans hid')
    refine ⟨?_, ?_, ?_⟩
    · intro hex hhex
      obtain ⟨named, hnamed, hparse⟩ := h.coherent hex hhex
      have hid : parseAcctIdMig (accountIdToHuman id) = .ok id := parseAcctIdChecked_human false id
      obtain rfl := Except.ok.inj (hid.symm.trans hnamed)
      exact hparse
    · intro hfresh
      have hsame := h.honest hfresh parsed hparsed
      have hbook : book = parsed.addressBook := congrArg WalletReadHeader.addressBook hsame
      rw [WalletReadHeader.stale, Bool.or_eq_false_iff] at hfresh
      exact (normal_eq_iff hloads.normal hfresh.2).mp hbook
    · intro h3
      obtain ⟨file1, load2, file2, hload1, hload2, -, -, hflag⟩ := h.settled
      obtain ⟨-, rfl⟩ := Prod.mk.inj (Except.ok.inj (hfirst.symm.trans hload1))
      obtain ⟨rfl, -⟩ := Prod.mk.inj (Except.ok.inj (hagain.symm.trans hload2))
      rw [hflag'] at hflag
      by_contra hne
      exact of_decide_eq_false hflag ⟨h3, hne⟩
  · intro h
    obtain ⟨hhex, hblanks, hpretty⟩ := h v parsed id hv hparsed hloads.account
    refine ⟨?_, ?_, ?_⟩
    · intro hex hsome
      exact ⟨id, parseAcctIdChecked_human false id, hhex hex hsome⟩
    · intro hfresh parsed' hparsed'
      obtain rfl := Except.ok.inj (hparsed.symm.trans hparsed')
      have hboth := hfresh
      change parsed.stale id = false at hboth
      rw [WalletReadHeader.stale, Bool.or_eq_false_iff, decide_eq_false_iff_not, not_not] at hboth
      have hbook := (normal_eq_iff hloads.normal hboth.2).mpr (hblanks hfresh)
      change parsed.normal id book ignored = _
      rw [WalletReadHeader.normal, ← hboth.1, hbook]
    · refine ⟨upgraded, load', file', hfirst, hagain, hhuman', hbook', ?_⟩
      rw [hflag']
      exact decide_eq_false fun hne => hne.2 (hpretty hne.1)

/-! ## A row with a stale readable id -/

namespace StalePretty

open LegacyRow

def row : WalletYamlV3Account where
  derivationPath := "m/0/7".toList
  derivationIndex := 7#32
  domainU16 := 0x2c7e#16
  flagsMaskU32 := 1023#32
  expectedFlagsU32 := 0#32
  flagsDerivedU32 := 0#32
  idHex := encodeHex owner
  idPretty := encodeHex owner
  addedAtUnixSec := none

def rows : WalletYamlV3 where
  toWalletKeys := wallet.toWalletKeys
  schemaVersion := 3#32
  mode := wallet.mode
  createdAtUnixSec := wallet.createdAtUnixSec
  countryCodeLabel := none
  activeAccountIdHex := none
  accounts := [row]
  addressBook := []

def rowsFile : Text :=
  lib.yaml.toStr (.mapping rows.fields)

def parsed : WalletReadV3Header where
  toWalletReadKeys := rows.toWalletReadKeys
  mode := rows.mode
  schemaVersion := some 3#32
  activeAccountIdHex := none
  accounts := [row.toWalletReadV3Account]
  addressBook := []

def stale : WalletReadHeader :=
  parsed.withAccount row.toWalletReadV3Account

theorem schema3 : detectSchemaVersion lib rowsFile = .ok 3#32 := by
  have hraw : lib.yaml.fromStr rowsFile = some (.mapping rows.fields) := by
    rw [rowsFile]
    exact roundTrips _
  have hversion : rows.fields.optional "schema_version" (readUint 32) = some (some 3#32) := by
    decide
  exact detectSchemaVersion_ok_iff.mpr ⟨_, _, hraw, hversion, rfl⟩

theorem parses : parseWalletReadHeader lib rowsFile = .ok stale := by
  have hread : fromStr lib WalletReadV3Header.read rowsFile = .ok parsed := by
    have hfields : WalletReadV3Header.read rows.fields = some parsed := by decide
    rw [rowsFile]
    exact (fromStr_toStr roundTrips).mpr hfields
  have hdefault : parsed.withDefaultAccount = .ok stale := by decide
  exact (parseWalletReadHeader_rows schema3).trans
    ((congrArg (fun x => x >>= WalletReadV3Header.withDefaultAccount) hread).trans hdefault)

theorem loads : HeaderLoads lib stale owner [] 0 := by
  have haccount : stale.sources.accountId lib = some owner := by decide
  exact ⟨haccount, by decide, rfl⟩

theorem header_loads3 : loadWalletReadHeader lib rowsFile false =
    .ok (⟨stale.normal owner [] 0, true, 0⟩, rowsFile) := by
  have hstale : stale.stale owner = true := by decide
  exact loadWalletReadHeader_ok_iff.mpr
    ⟨stale, owner, [], 0, parses, loads, by rw [hstale], rfl⟩

theorem upgrade_iff : UpgradesHeader lib rowsFile ⟨stale.normal owner [] 0, true, 0⟩ ↔
    ∀ v parsed id, detectSchemaVersion lib rowsFile = .ok v →
      parseWalletReadHeader lib rowsFile = .ok parsed → parsed.sources.accountId lib = some id →
      HeaderUpToDate v parsed id :=
  headerUpgrade_iff lib roundTrips header_loads3

/-- The readable id is written at the root of the document and read from the row, so the second
load finds it stale again. -/
theorem upgrade_does_not_settle : ¬ ∀ (L : WalletLib) (raw file : Text) (auto : Bool)
    (load : WalletReadLoad), L.yaml.RoundTrips →
    loadWalletReadHeader L raw auto = .ok (load, file) → UpgradesHeader L raw load := by
  intro h
  obtain ⟨file, load', file', hfirst, hsecond, -, -, hflag⟩ :=
    (h lib rowsFile rowsFile false _ roundTrips header_loads3).settled
  have hstale : stale.stale owner = true := by decide
  obtain ⟨parsed', id', book', ignored', hparsed, hloads, hload, hfile⟩ :=
    loadWalletReadHeader_ok_iff.mp hfirst
  obtain rfl := Except.ok.inj (parses.symm.trans hparsed)
  obtain rfl := Option.some.inj (loads.account.symm.trans hloads.account)
  obtain ⟨load2, file2, hagain, -, -, hflag2⟩ := second_load roundTrips schema3 parses hloads hfile
  obtain ⟨rfl, -⟩ := Prod.mk.inj (Except.ok.inj (hagain.symm.trans hsecond))
  have hne : ¬ stale.accountIdHuman = accountIdToHuman owner := by decide
  rw [hflag2] at hflag
  exact of_decide_eq_false hflag ⟨rfl, hne⟩

end StalePretty

end Pwm
