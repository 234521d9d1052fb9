import Pwm.Wallet.HeaderUpgrade

/-!
# Editing the address book of a wallet

A row is added to the document as it stands, and removed from the wallet as it
is loaded, which is then written as a document of one account.
-/

namespace Pwm

open Yaml

variable (L : WalletLib)

/-! ## Adding a row -/

/-- The account that an item of the list names. -/
def yamlItemAccountId : Value → Option AccountId
  | .string s => (parseAcctIdMig (Text.trim s)).toOption
  | .mapping m => do
      let address ← (Mapping.get m "address").bind Value.asStr
      (parseAcctIdMig (Text.trim address)).toOption
  | _ => none

/-- Why a row was not added; a duplicate is told apart from the rest. -/
inductive AppendError
  | duplicate
  | other (e : TextError)

def AppendError.text : AppendError → TextError
  | .duplicate => .own "address is already in address_book"
  | .other e => e

/-- The row of a new entry, with its label if that is not blank. -/
def addedEntry (id : AccountId) (label : Option Text) : AddressBookEntry :=
  match nonBlank label with
  | some l => .withLabel (accountIdToBech32dx id) (some l)
  | none => .addressOnly (accountIdToBech32dx id)

def appendAddrBook (raw addressInput : Text) (label : Option Text) : Except AppendError Text := do
  let id ← (parseAcctIdMig (Text.trim addressInput)).mapError .other
  (validateRecipientAddressPolicy id).mapError fun s => .other (.own s)
  let root ← Attempt.orFail (L.yaml.fromStr raw) (.other (.lib ""))
  let m ← Attempt.orFail root.asMapping (.other (.own "wallet YAML root must be a mapping"))
  let items ← Attempt.orFail ((m.get "address_book").getD (.sequence [])).asSequence
    (.other (.own "address_book must be a YAML sequence"))
  Attempt.check (∀ item ∈ items, yamlItemAccountId item ≠ some id) .duplicate
  return L.yaml.toStr (.mapping
    (m.insert "address_book" (.sequence (items ++ [(addedEntry id label).write]))))

/-- A refused duplicate keeps its text, and so does an error that speaks of one. -/
def bookAddError : AppendError → AppendError
  | .duplicate => .duplicate
  | .other (.own s) =>
      if (Text.splitOnce "already in address_book".toList s.toList).isSome then .other (.own s)
      else .other (.own ("wallet book-add: " ++ s))
  | .other (.lib front) => .other (.lib ("wallet book-add: " ++ front))

def walletAddressBookAdd (raw address : Text) (label : Option Text) : Except AppendError Text :=
  (appendAddrBook L raw address label).mapError bookAddError

/-! ## Removing rows -/

def saveWalletYaml (wallet : WalletYaml) : Text :=
  L.yaml.toStr (.mapping wallet.fields)

/-- The rows of other accounts. -/
def withoutAccount (book : List AddressBookEntry) (id : AccountId) : List AddressBookEntry :=
  book.filter fun e => decide (e.accountId.toOption ≠ some id)

def walletAddressBookRemove (raw address : Text) : Except TextError Text := do
  let wallet ← loadWalletYaml L raw
  let id ← (parseAcctIdUi (Text.trim address)).mapError (TextError.behind "invalid --address: ")
  let book := withoutAccount wallet.addressBook id
  Attempt.check (book.length ≠ wallet.addressBook.length)
    (.own "address not found in address_book")
  return saveWalletYaml L { wallet with addressBook := book }

/-! ## What an edit is to keep -/

inductive BookEdit
  | add (address : Text) (label : Option Text)
  | remove (address : Text)

/-- The account row of a wallet with one account. -/
def WalletYaml.account (wallet : WalletYaml) : WalletReadV3Account :=
  { derivationPath := migratedPath wallet
    derivationIndex := wallet.derivationIndex
    domainU16 := wallet.domainU16
    flagsMaskU32 := wallet.flagsMaskU32
    expectedFlagsU32 := wallet.expectedFlagsU32
    flagsDerivedU32 := wallet.flagsDerivedU32
    idHex := wallet.accountIdHex
    idPretty := wallet.accountIdHuman }

/-- The accounts of a file: its rows, or the one account of a wallet without rows. -/
def walletAccounts (raw : Text) : Except TextError (List WalletReadV3Account) := do
  let schemaVersion ← detectSchemaVersion L raw
  if schemaVersion = 3#32 then
    (fromStr L WalletYamlV3.read raw).map fun wallet =>
      wallet.accounts.map WalletYamlV3Account.toWalletReadV3Account
  else (loadWalletYaml L raw).map fun wallet => [wallet.account]

namespace BookEdit

def run (raw : Text) : BookEdit → Except AppendError Text
  | add address label => walletAddressBookAdd L raw address label
  | remove address => (walletAddressBookRemove L raw address).mapError .other

/-- Nothing is written behind an error. -/
def fileAfter (edit : BookEdit) (raw : Text) : Text :=
  match edit.run L raw with
  | .ok file => file
  | .error _ => raw

def accountId : BookEdit → Except TextError AccountId
  | add address _ => parseAcctIdMig (Text.trim address)
  | remove address => parseAcctIdUi (Text.trim address)

/-- The address book with one more row of the account, or without the rows of the account. -/
def BookAfter (edit : BookEdit) (id : AccountId) (book after : List AddressBookEntry) : Prop :=
  match edit with
  | add _ _ => ∃ entry : AddressBookEntry, entry.accountId = .ok id ∧ after = book ++ [entry]
  | remove _ => after = withoutAccount book id

/-- A finished edit leaves a file that is loaded, with the same secrets and accounts and the
address book it was to leave; a duplicate is refused only for an account in the book; and behind an
error the file is as it was. -/
structure Preserves (edit : BookEdit) (raw : Text) (wallet : WalletYaml) : Prop where
  done : ∀ file, edit.run L raw = .ok file → ∃ id wallet', edit.accountId = .ok id ∧
    loadWalletYaml L file = .ok wallet' ∧ wallet'.toWalletKeys = wallet.toWalletKeys ∧
    walletAccounts L file = walletAccounts L raw ∧
    edit.BookAfter id wallet.addressBook wallet'.addressBook
  duplicate : edit.run L raw = .error .duplicate → ∃ id, edit.accountId = .ok id ∧
    addressBookContains wallet.addressBook id = true
  failed : ∀ e, edit.run L raw = .error e → edit.fileAfter L raw = raw

end BookEdit

/-! ## A document with another address book -/

section Documents

variable {L} {raw : Text} {m : Mapping} {v : U32} {value : Value} {rows : List AddressBookEntry}

/-- The entries of a document with this list as its address book. -/
def withBook (m : Mapping) (value : Value) : Mapping :=
  m.insert "address_book" value

theorem get_withBook {name : String} (h : name ≠ "address_book") :
    (withBook m value).get name = m.get name := by
  rw [withBook, get_insert, if_neg h.symm]

theorem rows_withBook (hrows : readSeq AddressBookEntry.read value = some rows) :
    (withBook m value).defaulted "address_book" (readSeq AddressBookEntry.read) [] = some rows := by
  refine defaulted_of_get [] ?_ hrows
  rw [withBook, get_insert, if_pos rfl]

theorem WalletKeys.read_withBook (m : Mapping) (value : Value) :
    WalletKeys.read (withBook m value) = WalletKeys.read m := by
  have hget : ∀ name ∈ WalletKeys.names, (withBook m value).get name = m.get name := by
    intro name hname
    apply get_withBook
    rintro rfl
    exact absurd hname (by decide)
  rw [WalletKeys.read, WalletKeys.read, WalletReadKeys.read, WalletReadKeys.read,
    optional_congr (hget "master_seed_hex" (by decide)),
    optional_congr (hget "master_seed_b64" (by decide)),
    optional_congr (hget "signing_key_hex" (by decide)),
    optional_congr (hget "signing_key_b64" (by decide)),
    optional_congr (hget "verifying_key_hex" (by decide)),
    optional_congr (hget "verifying_key_b64" (by decide)),
    optional_congr (hget "encrypted_payload_b64" (by decide)),
    optional_congr (hget "kdf_salt_b64" (by decide)),
    optional_congr (hget "aead_nonce_b64" (by decide)),
    optional_congr (hget "kdf" (by decide)),
    optional_congr (hget "kdf_iters" (by decide))]

theorem WalletYaml.read_withBook {wallet : WalletYaml} (h : read m = some wallet)
    (hrows : readSeq AddressBookEntry.read value = some rows) :
    read (withBook m value) = some { wallet with addressBook := rows } := by
  obtain ⟨hkeys, h1, h2, h3, h4, h5, h6, h7, h8, h9, h10, h11, h12, -, hignored⟩ :=
    read_eq_some.mp h
  have hget : ∀ name, name ≠ "address_book" → (withBook m value).get name = m.get name :=
    fun _ => get_withBook
  refine read_eq_some.mpr ⟨(WalletKeys.read_withBook m value).trans hkeys, ?_, ?_, ?_, ?_, ?_, ?_,
    ?_, ?_, ?_, ?_, ?_, ?_, rows_withBook hrows, hignored⟩
  · exact (required_congr (hget _ (by decide))).trans h1
  · exact (required_congr (hget _ (by decide))).trans h2
  · exact (required_congr (hget _ (by decide))).trans h3
  · exact (optional_congr (hget _ (by decide))).trans h4
  · exact (required_congr (hget _ (by decide))).trans h5
  · exact (optional_congr (hget _ (by decide))).trans h6
  · exact (required_congr (hget _ (by decide))).trans h7
  · exact (required_congr (hget _ (by decide))).trans h8
  · exact (required_congr (hget _ (by decide))).trans h9
  · exact (required_congr (hget _ (by decide))).trans h10
  · exact (required_congr (hget _ (by decide))).trans h11
  · exact (required_congr (hget _ (by decide))).trans h12

theorem WalletYamlV3.read_withBook {wallet : WalletYamlV3} (h : read m = some wallet)
    (hrows : readSeq AddressBookEntry.read value = some rows) :
    read (withBook m value) = some { wallet with addressBook := rows } := by
  obtain ⟨hkeys, h1, h2, h3, h4, h5, h6, -⟩ := read_eq_some.mp h
  have hget : ∀ name, name ≠ "address_book" → (withBook m value).get name = m.get name :=
    fun _ => get_withBook
  refine read_eq_some.mpr ⟨(WalletKeys.read_withBook m value).trans hkeys, ?_, ?_, ?_, ?_, ?_, ?_,
    rows_withBook hrows⟩
  · exact (required_congr (hget _ (by decide))).trans h1
  · exact (required_congr (hget _ (by decide))).trans h2
  · exact (required_congr (hget _ (by decide))).trans h3
  · exact (optional_congr (hget _ (by decide))).trans h4
  · exact (optional_congr (hget _ (by decide))).trans h5
  · exact (required_congr (hget _ (by decide))).trans h6

theorem detect_withBook (hY : L.yaml.RoundTrips) (hraw : L.yaml.fromStr raw = some (.mapping m))
    (hv : detectSchemaVersion L raw = .ok v) :
    detectSchemaVersion L (L.yaml.toStr (.mapping (withBook m value))) = .ok v := by
  obtain ⟨m', o, hm', ho, hv⟩ := detectSchemaVersion_ok_iff.mp hv
  obtain rfl := Value.mapping.inj (Option.some.inj (hraw.symm.trans hm'))
  exact detectSchemaVersion_ok_iff.mpr
    ⟨_, o, hY _, (optional_congr (get_withBook (by decide))).trans ho, hv⟩

/-- The wallet as it is read has the new rows, and is as before besides. -/
theorem parseSchema_withBook (hY : L.yaml.RoundTrips)
    (hraw : L.yaml.fromStr raw = some (.mapping m)) {parsed : WalletYaml}
    (hparsed : parseSchema L v raw = .ok parsed)
    (hrows : readSeq AddressBookEntry.read value = some rows) :
    parseSchema L v (L.yaml.toStr (.mapping (withBook m value))) =
      .ok { parsed with addressBook := rows } := by
  rw [parseSchema] at hparsed ⊢
  by_cases h3 : v = 3#32
  · rw [if_pos h3, parseWalletYamlV3, Attempt.except_bind_ok_iff] at hparsed ⊢
    obtain ⟨w3, hw3, hdefault⟩ := hparsed
    obtain ⟨m', hm', hread⟩ := fromStr_ok_iff.mp hw3
    obtain rfl := Value.mapping.inj (Option.some.inj (hraw.symm.trans hm'))
    refine ⟨_, (fromStr_toStr hY).mpr (WalletYamlV3.read_withBook hread hrows), ?_⟩
    obtain ⟨hvalid, account, haccount, rfl⟩ := withDefaultAccount_ok_iff.mp hdefault
    exact withDefaultAccount_ok_iff.mpr
      ⟨⟨hvalid.paths, hvalid.master⟩, account, haccount, rfl⟩
  · rw [if_neg h3] at hparsed ⊢
    obtain ⟨m', hm', hread⟩ := fromStr_ok_iff.mp hparsed
    obtain rfl := Value.mapping.inj (Option.some.inj (hraw.symm.trans hm'))
    exact (fromStr_toStr hY).mpr (WalletYaml.read_withBook hread hrows)

theorem rows_of_parse (hraw : L.yaml.fromStr raw = some (.mapping m)) {parsed : WalletYaml}
    (hparsed : parseSchema L v raw = .ok parsed) :
    m.defaulted "address_book" (readSeq AddressBookEntry.read) [] = some parsed.addressBook := by
  rw [parseSchema] at hparsed
  by_cases h3 : v = 3#32
  · rw [if_pos h3, parseWalletYamlV3, Attempt.except_bind_ok_iff] at hparsed
    obtain ⟨w3, hw3, hdefault⟩ := hparsed
    obtain ⟨m', hm', hread⟩ := fromStr_ok_iff.mp hw3
    obtain rfl := Value.mapping.inj (Option.some.inj (hraw.symm.trans hm'))
    obtain ⟨-, account, -, rfl⟩ := withDefaultAccount_ok_iff.mp hdefault
    obtain ⟨-, -, -, -, -, -, -, hbook⟩ := WalletYamlV3.read_eq_some.mp hread
    exact hbook
  · rw [if_neg h3] at hparsed
    obtain ⟨m', hm', hread⟩ := fromStr_ok_iff.mp hparsed
    obtain rfl := Value.mapping.inj (Option.some.inj (hraw.symm.trans hm'))
    obtain ⟨-, -, -, -, -, -, -, -, -, -, -, -, -, hbook, -⟩ := WalletYaml.read_eq_some.mp hread
    exact hbook

/-- The items of the list are the rows that are read. -/
theorem readSeq_items {items : List Value}
    (hitems : ((m.get "address_book").getD (.sequence [])).asSequence = some items)
    (hrows : m.defaulted "address_book" (readSeq AddressBookEntry.read) [] = some rows) :
    readSeq AddressBookEntry.read (.sequence items) = some rows := by
  rw [Mapping.defaulted] at hrows
  cases hget : m.get "address_book" with
  | none =>
      rw [hget] at hitems hrows
      obtain rfl := Option.some.inj hitems
      obtain rfl := Option.some.inj hrows
      rfl
  | some value =>
      rw [hget] at hitems hrows
      cases value with
      | sequence vs =>
          obtain rfl := Option.some.inj hitems
          exact hrows
      | _ => cases hitems

/-- An item names the account of the row that it is read as. -/
theorem yamlItemAccountId_of_read {item : Value} {entry : AddressBookEntry}
    (h : AddressBookEntry.read item = some entry) :
    yamlItemAccountId item = entry.accountId.toOption := by
  cases item with
  | string s =>
      obtain rfl := Option.some.inj h
      rfl
  | mapping m =>
      obtain ⟨address, haddress, h⟩ := Option.bind_eq_some_iff.mp h
      obtain ⟨label, -, h⟩ := Option.bind_eq_some_iff.mp h
      obtain rfl := Option.some.inj h
      have hget : (Mapping.get m "address").bind Value.asStr = some address := haddress
      rw [yamlItemAccountId, hget]
      rfl
  | _ => cases h

theorem item_account_iff {items : List Value} {id : AccountId}
    (h : readSeq AddressBookEntry.read (.sequence items) = some rows) :
    (∃ item ∈ items, yamlItemAccountId item = some id) ↔
      ∃ entry ∈ rows, entry.accountId = .ok id := by
  have hall := forall₂_of_readSeq h
  clear h
  induction hall with
  | nil => exact iff_of_false (by simp) (by simp)
  | cons hread _ ih =>
      simp only [List.mem_cons, exists_eq_or_imp, ih, yamlItemAccountId_of_read hread,
        toOption_eq_some]

end Documents

/-! ## Adding -/

section Adding

variable {L} {raw : Text} {m : Mapping}

theorem addressStr_addedEntry (id : AccountId) (label : Option Text) :
    (addedEntry id label).addressStr = accountIdToBech32dx id := by
  rw [addedEntry]
  cases nonBlank label <;> rfl

theorem bookAddError_duplicate_iff {e : AppendError} :
    bookAddError e = .duplicate ↔ e = .duplicate := by
  cases e with
  | duplicate => exact iff_of_true rfl rfl
  | other e =>
      apply iff_of_false _ (fun h => by cases h)
      intro h
      cases e with
      | own s =>
          rw [bookAddError] at h
          split at h
          · cases h
          · cases h
      | lib front => cases h

/-- What is added to a document, and when that is refused as a duplicate. -/
theorem walletAddressBookAdd_spec (hraw : L.yaml.fromStr raw = some (.mapping m))
    {address : Text} {label : Option Text} :
    (∀ file, walletAddressBookAdd L raw address label = .ok file → ∃ id items,
      parseAcctIdMig (Text.trim address) = .ok id ∧
      ((m.get "address_book").getD (.sequence [])).asSequence = some items ∧
      file = L.yaml.toStr (.mapping
        (withBook m (.sequence (items ++ [(addedEntry id label).write]))))) ∧
    (walletAddressBookAdd L raw address label = .error .duplicate ↔ ∃ id items,
      parseAcctIdMig (Text.trim address) = .ok id ∧ validateRecipientAddressPolicy id = .ok () ∧
      ((m.get "address_book").getD (.sequence [])).asSequence = some items ∧
      ∃ item ∈ items, yamlItemAccountId item = some id) := by
  rw [walletAddressBookAdd, appendAddrBook, hraw]
  constructor
  · intro file h
    simp only [Attempt.mapError_ok_iff, Attempt.except_bind_ok_iff, Attempt.orFail_ok_iff,
      Attempt.check_ok_iff] at h
    obtain ⟨id, hid, _, -, _, hroot, m', hm', items, hitems, _, -, hout⟩ := h
    obtain rfl := Option.some.inj hroot
    obtain rfl := Option.some.inj hm'
    exact ⟨id, items, hid, hitems, (Except.ok.inj hout).symm⟩
  · simp only [Attempt.mapError_error_iff, bookAddError_duplicate_iff, exists_eq_right,
      Attempt.except_bind_error_iff, Attempt.orFail_error_iff, Attempt.check_error_iff,
      Attempt.mapError_ok_iff, Attempt.orFail_ok_iff, Attempt.check_ok_iff]
    constructor
    · rintro (⟨_, -, h⟩ | ⟨id, hid, ⟨_, -, h⟩ | ⟨_, hpolicy, ⟨h, -⟩ | ⟨root, hroot, ⟨-, h⟩ |
        ⟨m', hm', ⟨-, h⟩ | ⟨items, hitems, ⟨hdup, -⟩ | ⟨_, -, h⟩⟩⟩⟩⟩⟩)
      · cases h
      · cases h
      · cases h
      · cases h
      · cases h
      · obtain rfl := Option.some.inj hroot
        obtain rfl := Option.some.inj hm'
        simp only [ne_eq, not_forall, not_not] at hdup
        obtain ⟨item, hitem, hname⟩ := hdup
        exact ⟨id, items, hid, hpolicy, hitems, item, hitem, hname⟩
      · cases h
    · rintro ⟨id, items, hid, hpolicy, hitems, item, hitem, hname⟩
      refine .inr ⟨id, hid, .inr ⟨(), hpolicy, .inr ⟨_, rfl, .inr ⟨m, rfl, .inr ⟨items, hitems,
        .inl ⟨fun h => h item hitem hname, trivial⟩⟩⟩⟩⟩⟩

end Adding

section Loading

variable {L} {raw : Text} {m : Mapping} {v : U32} {parsed : WalletYaml} {id : AccountId}
  {book : List AddressBookEntry} {ignored : Nat}

theorem loads_withBook (h : Loads L v parsed id book ignored) {entry : AddressBookEntry}
    {other : AccountId} (hentry : entry.addressStr = accountIdToBech32dx other) :
    Loads L v { parsed with addressBook := parsed.addressBook ++ [entry] } id (book ++ [entry])
      ignored where
  account := h.account
  domain := h.domain
  normal := normalize_concat h.normal hentry
  valid h2 := ⟨(h.valid h2).paths, (h.valid h2).master⟩

theorem loaded_withBook (v : U32) (normal : WalletYaml) (book : List AddressBookEntry) :
    loaded v { normal with addressBook := book } =
      { loaded v normal with addressBook := book } := by
  rw [loaded, loaded]
  by_cases h2 : v = 2#32
  · rw [if_pos h2, if_pos h2]
    rfl
  · rw [if_neg h2, if_neg h2]

/-- A row added to the document is one more row of the loaded book, and nothing else changes. -/
theorem load_added (hY : L.yaml.RoundTrips) (hraw : L.yaml.fromStr raw = some (.mapping m))
    (hv : detectSchemaVersion L raw = .ok v) (hparsed : parseSchema L v raw = .ok parsed)
    (hloads : Loads L v parsed id book ignored) {items : List Value}
    (hitems : ((m.get "address_book").getD (.sequence [])).asSequence = some items)
    {entry : AddressBookEntry} {other : AccountId}
    (hentry : entry.addressStr = accountIdToBech32dx other) :
    loadWalletYaml L (L.yaml.toStr (.mapping (withBook m (.sequence (items ++ [entry.write]))))) =
      .ok { loaded v (parsed.normal id book ignored) with addressBook := book ++ [entry] } := by
  have hrows := readSeq_concat (readSeq_items hitems (rows_of_parse hraw hparsed))
    (AddressBookEntry.writes.read_write entry)
  refine (loadWalletYaml_ok_iff hY).mpr ⟨v, _, id, _, ignored, detect_withBook hY hraw hv,
    parseSchema_withBook hY hraw hparsed hrows, loads_withBook hloads hentry, ?_⟩
  exact loaded_withBook v (parsed.normal id book ignored) (book ++ [entry])

theorem walletAccounts_withBook (hY : L.yaml.RoundTrips)
    (hraw : L.yaml.fromStr raw = some (.mapping m))
    (hv : detectSchemaVersion L raw = .ok v) (hparsed : parseSchema L v raw = .ok parsed)
    {value : Value} {rows : List AddressBookEntry}
    (hrows : readSeq AddressBookEntry.read value = some rows) {wallet wallet' : WalletYaml}
    (hwallet : loadWalletYaml L raw = .ok wallet)
    (hwallet' : loadWalletYaml L (L.yaml.toStr (.mapping (withBook m value))) = .ok wallet')
    (hsame : wallet'.account = wallet.account) :
    walletAccounts L (L.yaml.toStr (.mapping (withBook m value))) = walletAccounts L raw := by
  rw [walletAccounts, walletAccounts, detect_withBook hY hraw hv, hv]
  change (if v = 3#32 then _ else _) = (if v = 3#32 then _ else _)
  by_cases h3 : v = 3#32
  · rw [if_pos h3, if_pos h3]
    rw [parseSchema, if_pos h3, parseWalletYamlV3, Attempt.except_bind_ok_iff] at hparsed
    obtain ⟨w3, hw3, -⟩ := hparsed
    obtain ⟨m', hm', hread⟩ := fromStr_ok_iff.mp hw3
    obtain rfl := Value.mapping.inj (Option.some.inj (hraw.symm.trans hm'))
    rw [hw3, (fromStr_toStr hY).mpr (WalletYamlV3.read_withBook hread hrows)]
    rfl
  · rw [if_neg h3, if_neg h3, hwallet, hwallet']
    exact congrArg (fun a => Except.ok [a]) hsame

end Loading

/-! ## Removing -/

section Removing

variable {L} {raw : Text} {v : U32} {parsed : WalletYaml} {id : AccountId}
  {book : List AddressBookEntry} {ignored : Nat}

/-- The account does not change when both of its forms are written. -/
theorem accountId_of_hex {sources : IdSources} (h : sources.accountId L = some id) :
    IdSources.accountId L
      { sources with hex := some (encodeHex id), human := accountIdToHuman id } = some id := by
  rw [IdSources.accountId] at h ⊢
  obtain ⟨index, hindex, h⟩ := Option.bind_eq_some_iff.mp h
  obtain ⟨found, hfound, h⟩ := Option.bind_eq_some_iff.mp h
  refine Option.bind_eq_some_iff.mpr ⟨index, hindex, ?_⟩
  refine Option.bind_eq_some_iff.mpr ⟨found, hfound, ?_⟩
  cases found with
  | some id' => exact h
  | none =>
      have hne : encodeHex id ≠ [] := by
        rw [encodeHex, ← List.length_pos_iff, Digits.length_hexDigits, BitVec.length_beBytes]
        omega
      have hhex : nonBlank (some (encodeHex id)) = some (encodeHex id) := by
        rw [nonBlank, Option.map_some, encodeHex, Text.trim_hexDigits]
        exact Option.filter_some_pos (decide_eq_true hne)
      change IdSources.cached
        { sources with hex := some (encodeHex id), human := accountIdToHuman id } = some id
      rw [IdSources.cached]
      change (match nonBlank (some (encodeHex id)) with
        | some hex => (parseAccountId hex).toOption
        | none => _) = some id
      rw [hhex]
      exact toOption_eq_some.mpr (parseAccountId_hexDigits id)

theorem schemaVersion_fields (wallet : WalletYaml) :
    wallet.fields.optional "schema_version" (readUint 32) = some (some wallet.schemaVersion) := by
  obtain ⟨-, hversion, -⟩ := WalletYaml.read_eq_some.mp wallet.read_fields
  exact optional_of_required rfl hversion

theorem detect_saved (hY : L.yaml.RoundTrips) (wallet : WalletYaml) :
    detectSchemaVersion L (saveWalletYaml L wallet) = .ok wallet.schemaVersion :=
  detectSchemaVersion_ok_iff.mpr ⟨_, _, hY _, schemaVersion_fields wallet, rfl⟩

theorem schemaVersion_of_parse (hv : detectSchemaVersion L raw = .ok v)
    (hparsed : parseSchema L v raw = .ok parsed) : parsed.schemaVersion = v := by
  rw [parseSchema] at hparsed
  by_cases h3 : v = 3#32
  · rw [if_pos h3, parseWalletYamlV3, Attempt.except_bind_ok_iff] at hparsed
    obtain ⟨w3, -, hdefault⟩ := hparsed
    obtain ⟨-, account, -, rfl⟩ := withDefaultAccount_ok_iff.mp hdefault
    exact h3.symm
  · rw [if_neg h3] at hparsed
    obtain ⟨m, hm, hread⟩ := fromStr_ok_iff.mp hparsed
    obtain ⟨m', o, hm', ho, hv⟩ := detectSchemaVersion_ok_iff.mp hv
    obtain rfl := Value.mapping.inj (Option.some.inj (hm.symm.trans hm'))
    obtain ⟨-, hversion, -⟩ := WalletYaml.read_eq_some.mp hread
    obtain rfl := Option.some.inj ((optional_of_required rfl hversion).symm.trans ho)
    exact hv

/-- A document with one account is not one of schema 3. -/
theorem saved_rows_not_loaded (hY : L.yaml.RoundTrips) {wallet : WalletYaml}
    (h3 : wallet.schemaVersion = 3#32) (wallet' : WalletYaml) :
    loadWalletYaml L (saveWalletYaml L wallet) ≠ .ok wallet' := by
  intro h
  obtain ⟨v, parsed, -, -, -, hv, hparsed, -⟩ := (loadWalletYaml_ok_iff hY).mp h
  rw [detect_saved hY, h3] at hv
  obtain rfl := Except.ok.inj hv
  rw [parseSchema, if_pos rfl, parseWalletYamlV3, Attempt.except_bind_ok_iff] at hparsed
  obtain ⟨w3, hw3, -⟩ := hparsed
  have hread := (fromStr_toStr hY).mp hw3
  obtain ⟨-, -, -, -, -, -, haccounts, -⟩ := WalletYamlV3.read_eq_some.mp hread
  have hmissing : wallet.fields.get "accounts" = none := by
    simp [WalletYaml.fields, WalletKeys.fields]
  rw [Mapping.required, hmissing] at haccounts
  cases haccounts

/-- A wallet of schema 1 is loaded with the rows that were written. -/
theorem load_saved (hY : L.yaml.RoundTrips) (hv : detectSchemaVersion L raw = .ok v)
    (hparsed : parseSchema L v raw = .ok parsed) (hloads : Loads L v parsed id book ignored)
    (h2 : v ≠ 2#32) (h3 : v ≠ 3#32) {rows : List AddressBookEntry}
    (hrows : ∀ row ∈ rows, ∃ id, row.addressStr = accountIdToBech32dx id) :
    loadWalletYaml L (saveWalletYaml L
        { parsed.normal id book ignored with addressBook := rows }) =
      .ok (parsed.normal id rows 0) := by
  have hversion := schemaVersion_of_parse hv hparsed
  have hdetect : detectSchemaVersion L (saveWalletYaml L
      { parsed.normal id book ignored with addressBook := rows }) = .ok v := by
    rw [detect_saved hY]
    exact congrArg Except.ok hversion
  have hparse : parseSchema L v (saveWalletYaml L
      { parsed.normal id book ignored with addressBook := rows }) =
      .ok (parsed.normal id rows 0) := by
    rw [parseSchema_root h3, saveWalletYaml, fromStr_toStr hY]
    exact WalletYaml.read_fields _
  have hagain : Loads L v (parsed.normal id rows 0) id rows 0 :=
    ⟨accountId_of_hex hloads.account, hloads.domain, normalize_bech32dx hrows,
      fun h => absurd h h2⟩
  refine (loadWalletYaml_ok_iff hY).mpr ⟨v, _, id, rows, 0, hdetect, hparse, hagain, ?_⟩
  rw [loaded, if_neg h2]
  rfl

theorem contains_iff {rows : List AddressBookEntry} : addressBookContains rows id = true ↔
    ∃ row ∈ rows, row.accountId = .ok id := by
  simp only [addressBookContains, List.any_eq_true, decide_eq_true_eq, toOption_eq_some]

theorem withoutAccount_length {rows : List AddressBookEntry} :
    (withoutAccount rows id).length ≠ rows.length ↔ addressBookContains rows id = true := by
  rw [withoutAccount, contains_iff, ne_eq, List.length_filter_eq_length_iff]
  simp [toOption_eq_some]

theorem walletAddressBookRemove_ok_iff {address file : Text} {wallet : WalletYaml}
    (hwallet : loadWalletYaml L raw = .ok wallet) :
    walletAddressBookRemove L raw address = .ok file ↔ ∃ id,
      parseAcctIdUi (Text.trim address) = .ok id ∧
      addressBookContains wallet.addressBook id = true ∧
      saveWalletYaml L { wallet with addressBook := withoutAccount wallet.addressBook id } =
        file := by
  rw [walletAddressBookRemove, hwallet]
  simp only [Attempt.except_bind_ok_iff, Attempt.mapError_ok_iff, Attempt.check_ok_iff,
    withoutAccount_length]
  constructor
  · rintro ⟨_, hw, id, hid, _, hcontains, hout⟩
    obtain rfl := Except.ok.inj hw
    exact ⟨id, hid, hcontains, Except.ok.inj hout⟩
  · rintro ⟨id, hid, hcontains, rfl⟩
    exact ⟨wallet, rfl, id, hid, (), hcontains, rfl⟩

end Removing

/-! ## Exactly when an edit preserves the wallet -/

/-- Added is an account that no pretty row names alone; removed is from a wallet that is neither of
schema 2 nor of schema 3, unless there is nothing to remove. -/
def BookEdit.Safe (L : WalletLib) (raw : Text) (wallet : WalletYaml) : BookEdit → Prop
  | .add address _ => ∀ id rows, parseAcctIdMig (Text.trim address) = .ok id →
      validateRecipientAddressPolicy id = .ok () → addressBookRows L raw = .ok rows →
      (∃ entry ∈ rows, entry.pretty = true ∧ entry.accountId = .ok id) →
      ∃ entry ∈ rows, entry.pretty = false ∧ entry.accountId = .ok id
  | .remove address => ∀ v id, detectSchemaVersion L raw = .ok v →
      parseAcctIdUi (Text.trim address) = .ok id →
      addressBookContains wallet.addressBook id = true → v ≠ 2#32 ∧ v ≠ 3#32

section Preserved

variable {L} {raw : Text} {m : Mapping} {v : U32} {parsed : WalletYaml} {id : AccountId}
  {book : List AddressBookEntry} {ignored : Nat} {wallet : WalletYaml}

/-- An account that the file names is in the loaded book exactly when a row names it that is not
in the pretty form. -/
theorem loaded_contains_iff (hloads : Loads L v parsed id book ignored) (other : AccountId) :
    addressBookContains (loaded v (parsed.normal id book ignored)).addressBook other = true ↔
      ∃ entry ∈ parsed.addressBook, entry.pretty = false ∧ entry.accountId = .ok other := by
  have hbook : (loaded v (parsed.normal id book ignored)).addressBook = book := by
    rw [loaded]
    by_cases h2 : v = 2#32
    · rw [if_pos h2]
      rfl
    · rw [if_neg h2]
      rfl
  rw [hbook, contains_iff, normal_accounts hloads.normal]

theorem add_preserves_iff (hY : L.yaml.RoundTrips) (address : Text) (label : Option Text)
    (hwallet : loadWalletYaml L raw = .ok wallet) :
    (BookEdit.add address label).Preserves L raw wallet ↔
      (BookEdit.add address label).Safe L raw wallet := by
  obtain ⟨v, parsed, id, book, ignored, hv, hparsed, hloads, rfl⟩ :=
    (loadWalletYaml_ok_iff hY).mp hwallet
  obtain ⟨m, _, hraw, -⟩ := detectSchemaVersion_ok_iff.mp hv
  have hrows := rows_of_parse hraw hparsed
  have hfile : addressBookRows L raw = .ok parsed.addressBook := fromStr_ok_iff.mpr ⟨m, hraw, hrows⟩
  obtain ⟨hadd, hduplicate⟩ := @walletAddressBookAdd_spec L raw m hraw address label
  constructor
  · intro h other rows hother hpolicy hrows' hpretty
    obtain rfl := Except.ok.inj (hfile.symm.trans hrows')
    obtain ⟨entry, hentry, -, hname⟩ := hpretty
    have hne : parsed.addressBook ≠ [] := List.ne_nil_of_mem hentry
    obtain ⟨items, hitems⟩ : ∃ items,
        ((m.get "address_book").getD (.sequence [])).asSequence = some items := by
      rw [Mapping.defaulted] at hrows
      cases hget : m.get "address_book" with
      | none => exact ⟨[], rfl⟩
      | some value =>
          rw [hget] at hrows
          obtain ⟨items, rfl⟩ := sequence_of_readSeq hne hrows
          exact ⟨items, rfl⟩
    have hitem := (item_account_iff (readSeq_items hitems hrows)).mpr ⟨entry, hentry, hname⟩
    obtain ⟨other', hother', hcontains⟩ :=
      h.duplicate (hduplicate.mpr ⟨other, items, hother, hpolicy, hitems, hitem⟩)
    obtain rfl := Except.ok.inj (hother.symm.trans hother')
    exact (loaded_contains_iff hloads other).mp hcontains
  · intro h
    refine ⟨fun file hrun => ?_, fun hrun => ?_, fun e hrun => ?_⟩
    · obtain ⟨other, items, hother, hitems, rfl⟩ := hadd file hrun
      have hentry := addressStr_addedEntry other label
      have hload := load_added hY hraw hv hparsed hloads hitems hentry
      have hread := readSeq_concat (readSeq_items hitems hrows)
        (AddressBookEntry.writes.read_write (addedEntry other label))
      have hbook : (loaded v (parsed.normal id book ignored)).addressBook = book := by
        rw [loaded]
        by_cases h2 : v = 2#32
        · rw [if_pos h2]
          rfl
        · rw [if_neg h2]
          rfl
      refine ⟨other, _, hother, hload, rfl,
        walletAccounts_withBook hY hraw hv hparsed hread hwallet hload rfl,
        addedEntry other label, AddressBookEntry.accountId_of_bech32dx hentry, ?_⟩
      rw [hbook]
    · obtain ⟨other, items, hother, hpolicy, hitems, hitem⟩ := hduplicate.mp hrun
      obtain ⟨entry, hentry, hname⟩ := (item_account_iff (readSeq_items hitems hrows)).mp hitem
      refine ⟨other, hother, (loaded_contains_iff hloads other).mpr ?_⟩
      cases hpretty : entry.pretty with
      | false => exact ⟨entry, hentry, hpretty, hname⟩
      | true => exact h other _ hother hpolicy hfile ⟨entry, hentry, hpretty, hname⟩
    · rw [BookEdit.fileAfter, hrun]

theorem remove_preserves_iff (hY : L.yaml.RoundTrips) (address : Text)
    (hwallet : loadWalletYaml L raw = .ok wallet) :
    (BookEdit.remove address).Preserves L raw wallet ↔
      (BookEdit.remove address).Safe L raw wallet := by
  have hremove : ∀ file, (BookEdit.remove address).run L raw = .ok file ↔ _ := fun file =>
    Attempt.mapError_ok_iff.trans (@walletAddressBookRemove_ok_iff L raw address file _ hwallet)
  obtain ⟨v, parsed, id, book, ignored, hv, hparsed, hloads, rfl⟩ :=
    (loadWalletYaml_ok_iff hY).mp hwallet
  have hversion := schemaVersion_of_parse hv hparsed
  constructor
  · intro h v' other hv' hother hcontains
    obtain rfl := Except.ok.inj (hv.symm.trans hv')
    by_contra hschema
    have h3 : (loaded v (parsed.normal id book ignored)).schemaVersion = 3#32 := by
      rw [loaded]
      by_cases h2 : v = 2#32
      · rw [if_pos h2]
        rfl
      · rw [if_neg h2]
        by_contra hne
        exact hschema ⟨h2, fun h => hne (hversion.trans h)⟩
    obtain ⟨other', wallet', -, hload, -⟩ :=
      h.done _ ((hremove _).mpr ⟨other, hother, hcontains, rfl⟩)
    exact saved_rows_not_loaded hY (by exact h3) wallet' hload
  · intro h
    refine ⟨fun file hrun => ?_, fun hrun => ?_, fun e hrun => ?_⟩
    · obtain ⟨other, hother, hcontains, rfl⟩ := (hremove file).mp hrun
      obtain ⟨h2, h3⟩ := h v other hv hother hcontains
      have hnormal : loaded v (parsed.normal id book ignored) = parsed.normal id book ignored := by
        rw [loaded, if_neg h2]
      rw [hnormal] at hwallet ⊢
      have hkept : ∀ row ∈ withoutAccount book other, ∃ id, row.addressStr = accountIdToBech32dx id :=
        fun row hrow => normal_rows hloads.normal (List.mem_filter.mp hrow).1
      have hload := load_saved hY hv hparsed hloads h2 h3 hkept
      refine ⟨other, _, hother, hload, rfl, ?_, rfl⟩
      rw [walletAccounts, walletAccounts, detect_saved hY, hv, hwallet]
      change (if parsed.schemaVersion = 3#32 then _ else _) = (if v = 3#32 then _ else _)
      rw [hversion, if_neg h3, if_neg h3]
      exact (congrArg (fun x => x.map fun w => [w.account]) hload).trans rfl
    · obtain ⟨e, -, he⟩ := Attempt.mapError_error_iff.mp hrun
      cases he
    · rw [BookEdit.fileAfter, hrun]

/-- An edit of the address book of a wallet preserves the wallet exactly when it is safe. -/
theorem bookEdit_preserves_iff (L : WalletLib) (hY : L.yaml.RoundTrips) {raw : Text}
    {wallet : WalletYaml} (hwallet : loadWalletYaml L raw = .ok wallet) (edit : BookEdit) :
    edit.Preserves L raw wallet ↔ edit.Safe L raw wallet := by
  cases edit with
  | add address label => exact add_preserves_iff hY address label hwallet
  | remove address => exact remove_preserves_iff hY address hwallet

end Preserved

/-! ## A row removed from a wallet of schema 2 -/

namespace BookRow

open LegacyRow

def row : AddressBookEntry :=
  .addressOnly (accountIdToBech32dx owner)

def booked : WalletYaml :=
  { wallet with addressBook := [row] }

def bookedFile : Text :=
  saveWalletYaml lib booked

def removeRow : BookEdit :=
  .remove (accountIdToBech32dx owner)

theorem booked_schema : detectSchemaVersion lib bookedFile = .ok 2#32 := by
  rw [bookedFile]
  exact detect_saved roundTrips booked

theorem booked_loads : loadWalletYaml lib bookedFile =
    .ok (booked.normal owner [row] 0).migrated := by
  have hparsed : parseSchema lib 2#32 bookedFile = .ok booked :=
    (parseSchema_root (by decide)).trans ((fromStr_toStr roundTrips).mpr booked.read_fields)
  have hpaths : validateV3DerivationPaths
      ((booked.normal owner [row] 0).toV3 (encodeHex owner) owner) = .ok () := by decide
  have hmode : ¬ booked.mode = "plaintext_dev".toList := by decide
  have hrows : ∀ entry ∈ [row], ∃ id, entry.addressStr = accountIdToBech32dx id := by
    intro entry hentry
    exact ⟨owner, congrArg AddressBookEntry.addressStr (List.mem_singleton.mp hentry)⟩
  have hnormal : normalizeAddressBookEntries booked.addressBook = .ok ([row], 0) :=
    normalize_bech32dx hrows
  have hloads : Loads lib 2#32 booked owner [row] 0 :=
    ⟨account, by decide, hnormal, fun _ => ⟨hpaths, fun h => absurd h hmode⟩⟩
  exact (loadWalletYaml_ok_iff roundTrips).mpr
    ⟨2#32, booked, owner, [row], 0, booked_schema, hparsed, hloads, rfl⟩

theorem preserves_iff : removeRow.Preserves lib bookedFile (booked.normal owner [row] 0).migrated ↔
    removeRow.Safe lib bookedFile (booked.normal owner [row] 0).migrated :=
  bookEdit_preserves_iff lib roundTrips booked_loads removeRow

/-- The row is removed, and the file that is left is no longer loaded. -/
theorem remove_loses_wallet : ¬ ∀ (L : WalletLib) (raw : Text) (wallet : WalletYaml)
    (edit : BookEdit), L.yaml.RoundTrips → loadWalletYaml L raw = .ok wallet →
    edit.Preserves L raw wallet := by
  intro h
  have hpreserves := h lib bookedFile _ removeRow roundTrips booked_loads
  have hid : parseAcctIdUi (Text.trim (accountIdToBech32dx owner)) = .ok owner := by
    rw [trim_bech32dx]
    exact parseAcctIdChecked_bech32dx true owner
  have hcontains : addressBookContains [row] owner = true :=
    contains_iff.mpr ⟨row, List.mem_singleton_self row, AddressBookEntry.accountId_of_bech32dx rfl⟩
  exact ((remove_preserves_iff roundTrips _ booked_loads).mp hpreserves 2#32 owner booked_schema
    hid hcontains).1 rfl

end BookRow

end Pwm
