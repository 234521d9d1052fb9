import Pwm.Wallet.Store

/-!
# The header of a wallet file

The tools that need no secrets read a header of the file. The account and the
address book of the header are brought to their present forms, and the file is
rewritten on request when that changed them.
-/

namespace Pwm

open Yaml

variable (L : WalletLib)

/-! ## Records -/

structure WalletReadOwnedAccount where
  idHex : Text
  idHuman : Text
  deriving DecidableEq

/-- The header; the last field is not in the file. -/
structure WalletReadHeader extends WalletReadKeys where
  schemaVersion : U32
  mode : Text
  derivationIndex : U32
  derivationPath : Option Text
  domainU16 : U16
  accountIdHex : Option Text
  accountIdHuman : Text
  ownedAccounts : List WalletReadOwnedAccount
  addressBook : List AddressBookEntry
  ignoredLegacyPrettyEntries : Nat
  deriving DecidableEq

structure WalletReadV3Header extends WalletReadKeys where
  mode : Text
  schemaVersion : Option U32
  activeAccountIdHex : Option Text
  accounts : List WalletReadV3Account
  addressBook : List AddressBookEntry
  deriving DecidableEq

def WalletReadOwnedAccount.read (m : Mapping) : Option WalletReadOwnedAccount := do
  let idHex ← m.required "id_hex" Value.asStr
  let idHuman ← m.required "id_human" Value.asStr
  return ⟨idHex, idHuman⟩

def WalletReadHeader.read (m : Mapping) : Option WalletReadHeader := do
  let keys ← WalletReadKeys.read m
  let schemaVersion ← m.defaulted "schema_version" (readUint 32) 2#32
  let mode ← m.required "mode" Value.asStr
  let derivationIndex ← m.required "derivation_index" (readUint 32)
  let derivationPath ← m.optional "derivation_path" Value.asStr
  let domainU16 ← m.required "domain_u16" (readUint 16)
  let accountIdHex ← m.optional "account_id_hex" Value.asStr
  let accountIdHuman ← m.required "account_id_human" Value.asStr
  let ownedAccounts ← m.defaulted "owned_accounts"
    (readSeq (Value.record WalletReadOwnedAccount.read)) []
  let addressBook ← m.defaulted "address_book" (readSeq AddressBookEntry.read) []
  return ⟨keys, schemaVersion, mode, derivationIndex, derivationPath, domainU16, accountIdHex,
    accountIdHuman, ownedAccounts, addressBook, 0⟩

def WalletReadV3Header.read (m : Mapping) : Option WalletReadV3Header := do
  let keys ← WalletReadKeys.read m
  let mode ← m.required "mode" Value.asStr
  let schemaVersion ← m.optional "schema_version" (readUint 32)
  let activeAccountIdHex ← m.optional "active_account_id_hex" Value.asStr
  let accounts ← m.required "accounts" (readSeq (Value.record WalletReadV3Account.read))
  let addressBook ← m.defaulted "address_book" (readSeq AddressBookEntry.read) []
  return ⟨keys, mode, schemaVersion, activeAccountIdHex, accounts, addressBook⟩

/-! ## The account -/

namespace WalletReadHeader

def parseDerivationIndex (wallet : WalletReadHeader) : Except TextError U32 :=
  pathIndex wallet.derivationPath wallet.derivationIndex

def acctIdFromSource (wallet : WalletReadHeader) : Except TextError (Option AccountId) := do
  let index ← wallet.parseDerivationIndex
  idFromSource L wallet.toWalletReadKeys index

end WalletReadHeader

def ensureDomainConsistency (domainU16 : U16) (id : AccountId) : Except TextError Unit :=
  Attempt.check (domainOfAccountId id = domainU16)
    (.own ("wallet domain_u16/account id mismatch: domain_u16=" ++
      String.ofList (Nat.toDigits 10 domainU16.toNat) ++ " account_id_domain=" ++
      String.ofList (Nat.toDigits 10 (domainOfAccountId id).toNat)))

/-- The error of the written id stands between two texts of the code. -/
def recoverError : TextError → TextError
  | .own s => .own ("wallet account_id_human migration error: " ++ s ++
      "; cannot recover low-byte unambiguously without account_id_hex/canonical id")
  | .lib s => .lib ("wallet account_id_human migration error: " ++ s)

def WalletReadHeader.resolveWalletAccountId (wallet : WalletReadHeader) :
    Except TextError AccountId := do
  match ← wallet.acctIdFromSource L with
  | some id => do
      ensureDomainConsistency wallet.domainU16 id
      pure id
  | none =>
      match nonBlank wallet.accountIdHex with
      | some hex => do
          let id ← (parseAccountId hex).mapError
            (TextError.behind "wallet account_id_hex is invalid: ")
          ensureDomainConsistency wallet.domainU16 id
          pure id
      | none => do
          let id ← (parseAcctIdMig (Text.trim wallet.accountIdHuman)).mapError recoverError
          ensureDomainConsistency wallet.domainU16 id
          pure id

/-! ## Normal forms -/

/-- The rows from a position on, whether one was changed, and how many were left out. -/
def normalizeHeaderBookFrom (idx : Nat) :
    List AddressBookEntry → Except TextError (List AddressBookEntry × Bool × Nat)
  | [] => .ok ([], false, 0)
  | entry :: rest =>
      if isLegacyPrettyAddress entry.addressStr then
        (normalizeHeaderBookFrom (idx + 1) rest).map fun p => (p.1, true, p.2.2 + 1)
      else do
        let id ← bookEntryId idx entry
        let p ← normalizeHeaderBookFrom (idx + 1) rest
        return (entry.canonical id :: p.1,
          decide (Text.trim entry.addressStr ≠ accountIdToBech32dx id) || p.2.1, p.2.2)

def normalizeHeaderBook (entries : List AddressBookEntry) :
    Except TextError (List AddressBookEntry × Bool × Nat) :=
  (normalizeHeaderBookFrom 0 entries).map fun p =>
    (p.1, p.2.1 || decide (p.1.length ≠ entries.length), p.2.2)

/-- The header with this account and this address book. -/
def WalletReadHeader.normal (wallet : WalletReadHeader) (id : AccountId)
    (book : List AddressBookEntry) (ignored : Nat) : WalletReadHeader :=
  { wallet with
    accountIdHuman := accountIdToHuman id
    addressBook := book
    ignoredLegacyPrettyEntries := ignored }

/-- The header in its present form, and whether that changed it. -/
def normalizeWalletHeader (wallet : WalletReadHeader) :
    Except TextError (WalletReadHeader × Bool) := do
  let accountId ← wallet.resolveWalletAccountId L
  let (book, bookChanged, ignored) ← normalizeHeaderBook wallet.addressBook
  return (wallet.normal accountId book ignored,
    decide (wallet.accountIdHuman ≠ accountIdToHuman accountId) || bookChanged)

/-! ## Schema 3 -/

/-- The header with this row as its account. -/
def WalletReadV3Header.withAccount (parsed : WalletReadV3Header) (account : WalletReadV3Account) :
    WalletReadHeader :=
  { toWalletReadKeys := parsed.toWalletReadKeys
    schemaVersion := 3#32
    mode := parsed.mode
    derivationIndex := account.derivationIndex
    derivationPath := some account.derivationPath
    domainU16 := account.domainU16
    accountIdHex := some account.idHex
    accountIdHuman := account.idPretty
    ownedAccounts := parsed.accounts.map fun a => ⟨a.idHex, a.idPretty⟩
    addressBook := parsed.addressBook
    ignoredLegacyPrettyEntries := 0 }

def WalletReadV3Header.withDefaultAccount (parsed : WalletReadV3Header) :
    Except TextError WalletReadHeader := do
  validateRows WalletReadV3Account.validatePath parsed.accounts
  let account ← Attempt.orFail (defaultRow (fun account => account) parsed.accounts)
    (.own "wallet schema v3 requires non-empty accounts")
  pure (parsed.withAccount account)

def parseWalletV3Hdr (raw : Text) : Except TextError WalletReadHeader := do
  let parsed ← fromStr L WalletReadV3Header.read raw
  parsed.withDefaultAccount

/-! ## Loading -/

structure WalletReadLoad where
  header : WalletReadHeader
  upgradedOnLoad : Bool
  ignoredLegacyPrettyEntries : Nat

/-- The file with the account and the address book of the header at its root. -/
def rewriteWalletHeaderFields (raw : Text) (normalized : WalletReadHeader) :
    Except TextError Text :=
  match L.yaml.fromStr raw with
  | none => .error (.lib "")
  | some (.mapping root) =>
      let named := Mapping.insert root "account_id_human" (.string normalized.accountIdHuman)
      let book := .sequence (normalized.addressBook.map AddressBookEntry.write)
      .ok (L.yaml.toStr (.mapping (named.insert "address_book" book)))
  | some _ => .error (.own "wallet YAML root must be a mapping")

def parseWalletReadHeader (raw : Text) : Except TextError WalletReadHeader := do
  let schemaVersion ← detectSchemaVersion L raw
  if schemaVersion = 3#32 then parseWalletV3Hdr L raw else fromStr L WalletReadHeader.read raw

/-- The file after its header was loaded. -/
def upgradedFile (raw : Text) (upgrade : Bool) (normalized : WalletReadHeader) :
    Except TextError Text :=
  if upgrade then rewriteWalletHeaderFields L raw normalized else .ok raw

/-- The header of a file, and the file afterwards. -/
def loadWalletReadHeader (raw : Text) (autoUpgradeOnLoad : Bool) :
    Except TextError (WalletReadLoad × Text) := do
  let parsed ← parseWalletReadHeader L raw
  let (normalized, changed) ← normalizeWalletHeader L parsed
  let file ← upgradedFile L raw (autoUpgradeOnLoad && changed) normalized
  return (⟨normalized, changed, normalized.ignoredLegacyPrettyEntries⟩, file)

/-! ## What is read -/

theorem WalletReadHeader.read_eq_some {m : Mapping} {header : WalletReadHeader} :
    read m = some header ↔
      WalletReadKeys.read m = some header.toWalletReadKeys ∧
      m.defaulted "schema_version" (readUint 32) 2#32 = some header.schemaVersion ∧
      m.required "mode" Value.asStr = some header.mode ∧
      m.required "derivation_index" (readUint 32) = some header.derivationIndex ∧
      m.optional "derivation_path" Value.asStr = some header.derivationPath ∧
      m.required "domain_u16" (readUint 16) = some header.domainU16 ∧
      m.optional "account_id_hex" Value.asStr = some header.accountIdHex ∧
      m.required "account_id_human" Value.asStr = some header.accountIdHuman ∧
      m.defaulted "owned_accounts" (readSeq (Value.record WalletReadOwnedAccount.read)) [] =
        some header.ownedAccounts ∧
      m.defaulted "address_book" (readSeq AddressBookEntry.read) [] = some header.addressBook ∧
      header.ignoredLegacyPrettyEntries = 0 := by
  constructor
  · intro h
    obtain ⟨_, h1, h⟩ := Option.bind_eq_some_iff.mp h
    obtain ⟨_, h2, h⟩ := Option.bind_eq_some_iff.mp h
    obtain ⟨_, h3, h⟩ := Option.bind_eq_some_iff.mp h
    obtain ⟨_, h4, h⟩ := Option.bind_eq_some_iff.mp h
    obtain ⟨_, h5, h⟩ := Option.bind_eq_some_iff.mp h
    obtain ⟨_, h6, h⟩ := Option.bind_eq_some_iff.mp h
    obtain ⟨_, h7, h⟩ := Option.bind_eq_some_iff.mp h
    obtain ⟨_, h8, h⟩ := Option.bind_eq_some_iff.mp h
    obtain ⟨_, h9, h⟩ := Option.bind_eq_some_iff.mp h
    obtain ⟨_, h10, h⟩ := Option.bind_eq_some_iff.mp h
    obtain rfl := Option.some.inj h
    exact ⟨h1, h2, h3, h4, h5, h6, h7, h8, h9, h10, rfl⟩
  · rintro ⟨h1, h2, h3, h4, h5, h6, h7, h8, h9, h10, h11⟩
    simp only [read, h1, h2, h3, h4, h5, h6, h7, h8, h9, h10]
    rw [← h11]
    rfl

theorem WalletReadV3Header.read_eq_some {m : Mapping} {header : WalletReadV3Header} :
    read m = some header ↔
      WalletReadKeys.read m = some header.toWalletReadKeys ∧
      m.required "mode" Value.asStr = some header.mode ∧
      m.optional "schema_version" (readUint 32) = some header.schemaVersion ∧
      m.optional "active_account_id_hex" Value.asStr = some header.activeAccountIdHex ∧
      m.required "accounts" (readSeq (Value.record WalletReadV3Account.read)) =
        some header.accounts ∧
      m.defaulted "address_book" (readSeq AddressBookEntry.read) [] =
        some header.addressBook := by
  constructor
  · intro h
    simp only [read, Option.bind_eq_bind, Option.bind_eq_some_iff, pure, Option.some.injEq] at h
    obtain ⟨_, h1, _, h2, _, h3, _, h4, _, h5, _, h6, rfl⟩ := h
    exact ⟨h1, h2, h3, h4, h5, h6⟩
  · rintro ⟨h1, h2, h3, h4, h5, h6⟩
    simp only [read, h1, h2, h3, h4, h5, h6]
    rfl

/-! ## What is loaded -/

def WalletReadHeader.sources (header : WalletReadHeader) : IdSources :=
  ⟨header.toWalletReadKeys, header.derivationPath, header.derivationIndex, header.accountIdHex,
    header.accountIdHuman⟩

section Loaded

variable {L} {raw : Text}

theorem check_then_ok_iff {p : Prop} [Decidable p] {e : TextError} {a b : AccountId} :
    (do Attempt.check p e
        pure a) = Except.ok b ↔ a = b ∧ p := by
  simp only [Attempt.except_bind_ok_iff, Attempt.check_ok_iff]
  constructor
  · rintro ⟨_, hp, h⟩
    exact ⟨Except.ok.inj h, hp⟩
  · rintro ⟨rfl, hp⟩
    exact ⟨(), hp, rfl⟩

theorem WalletReadHeader.resolve_ok_iff {header : WalletReadHeader} {id : AccountId} :
    header.resolveWalletAccountId L = .ok id ↔
      header.sources.accountId L = some id ∧ domainOfAccountId id = header.domainU16 := by
  have hread : ∀ x : Except TextError AccountId,
      (do let found ← x
          ensureDomainConsistency header.domainU16 found
          pure found) = Except.ok id ↔
        x.toOption = some id ∧ domainOfAccountId id = header.domainU16 := by
    intro x
    cases x with
    | error e => exact iff_of_false (fun h => by cases h) (fun h => by cases h.1)
    | ok found =>
        refine check_then_ok_iff.trans ?_
        rw [Except.toOption, Option.some.injEq]
        constructor
        · rintro ⟨rfl, hdomain⟩
          exact ⟨rfl, hdomain⟩
        · rintro ⟨rfl, hdomain⟩
          exact ⟨rfl, hdomain⟩
  have hmap : ∀ (x : Except TextError AccountId) (g : TextError → TextError),
      (x.mapError g).toOption = x.toOption := by
    intro x g
    cases x <;> rfl
  rw [resolveWalletAccountId, IdSources.accountId, acctIdFromSource, parseDerivationIndex]
  change _ ↔ (pathIndex header.derivationPath header.derivationIndex).toOption.bind _ = some id ∧ _
  cases pathIndex header.derivationPath header.derivationIndex with
  | error e => exact iff_of_false (fun h => by cases h) (fun h => by cases h.1)
  | ok index =>
      change (idFromSource L header.toWalletReadKeys index >>= _) = Except.ok id ↔
        (idFromSource L header.toWalletReadKeys index).toOption.bind _ = some id ∧ _
      cases idFromSource L header.toWalletReadKeys index with
      | error e => exact iff_of_false (fun h => by cases h) (fun h => by cases h.1)
      | ok found =>
          cases found with
          | some found => exact hread (.ok found)
          | none =>
              change _ ↔ header.sources.cached = some id ∧ _
              rw [IdSources.cached]
              change (match nonBlank header.accountIdHex with
                | some hex => _
                | none => _) = Except.ok id ↔ (match nonBlank header.accountIdHex with
                | some hex => _
                | none => _) = some id ∧ _
              cases nonBlank header.accountIdHex with
              | some hex => exact (hread _).trans (by rw [hmap])
              | none => exact (hread _).trans (by rw [hmap]; rfl)

theorem normalizeWalletHeader_ok_iff {parsed header : WalletReadHeader} {changed : Bool} :
    normalizeWalletHeader L parsed = .ok (header, changed) ↔
      ∃ id book bookChanged ignored, parsed.sources.accountId L = some id ∧
        domainOfAccountId id = parsed.domainU16 ∧
        normalizeHeaderBook parsed.addressBook = .ok (book, bookChanged, ignored) ∧
        parsed.normal id book ignored = header ∧
        (decide (parsed.accountIdHuman ≠ accountIdToHuman id) || bookChanged) = changed := by
  rw [normalizeWalletHeader]
  simp only [Attempt.except_bind_ok_iff, WalletReadHeader.resolve_ok_iff]
  constructor
  · rintro ⟨id, ⟨hid, hdomain⟩, ⟨book, bookChanged, ignored⟩, hbook, hout⟩
    obtain ⟨hheader, hchanged⟩ := Prod.mk.inj (Except.ok.inj hout)
    exact ⟨id, book, bookChanged, ignored, hid, hdomain, hbook, hheader, hchanged⟩
  · rintro ⟨id, book, bookChanged, ignored, hid, hdomain, hbook, rfl, rfl⟩
    exact ⟨id, ⟨hid, hdomain⟩, ⟨book, bookChanged, ignored⟩, hbook, rfl⟩

end Loaded

end Pwm
