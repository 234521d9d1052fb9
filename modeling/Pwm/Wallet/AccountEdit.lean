import Pwm.Wallet.ReadersAgree

/-!
# Editing the accounts of a wallet

Accounts are added to and removed from a wallet of schema 3. The new wallet is
merged into the document, entry by entry and row by row, so that entries the
commands do not know are kept. Behind a removed row the rows move up by one
place, and an entry that is not written stays where it was.
-/

namespace Pwm

open Yaml

variable (L : WalletLib)

/-! ## Saving -/

def legacyActiveAccountKey : String :=
  "active_account_id_hex"

def removeLegacyActiveAccount : Value → Value
  | .mapping m => .mapping (Mapping.remove m (named legacyActiveAccountKey))
  | v => v

def v3CleanValue (wallet : WalletYamlV3) : Value :=
  removeLegacyActiveAccount (.mapping wallet.fields)

/-- The file with the wallet merged into its document. -/
def saveV3Merge (raw : Text) (wallet : WalletYamlV3) : Except TextError Text := do
  let current ← Attempt.orFail (L.yaml.fromStr raw) (.lib "")
  return L.yaml.toStr (removeLegacyActiveAccount (merge current (v3CleanValue wallet)))

def loadWalletV3Raw (raw : Text) : Except TextError WalletYamlV3 := do
  let schemaVersion ← detectSchemaVersion L raw
  Attempt.check (schemaVersion = 3#32)
    (.own "wallet account commands require schema v3 wallet file")
  let wallet ← fromStr L WalletYamlV3.read raw
  validateV3DerivationPaths wallet
  Attempt.check (wallet.accounts ≠ []) (.own "wallet schema v3 requires non-empty accounts")
  return wallet

/-! ## Commands -/

structure WalletAccountEntry where
  derivationIndex : U32
  derivationPath : Text
  idHex : Text
  idPretty : Text
  isActive : Bool
  deriving DecidableEq

structure WalletAccountRemoveResult where
  removedIdHex : Text
  newActiveIdHex : Text
  removedWasActive : Bool
  deriving DecidableEq

def eqIgnoreAsciiCase (a b : Text) : Bool :=
  decide (Text.toAsciiLower a = Text.toAsciiLower b)

/-- The account of an index, with the flags of the first account. -/
def addedAccount (baseline : WalletYamlV3Account) (derivationIndex : U32) (id : AccountId)
    (now : U64) : WalletYamlV3Account :=
  { derivationIndex := derivationIndex
    derivationPath := pathPrefix ++ Nat.toDigits 10 derivationIndex.toNat
    domainU16 := domainOfAccountId id
    flagsMaskU32 := baseline.flagsMaskU32
    expectedFlagsU32 := baseline.expectedFlagsU32
    flagsDerivedU32 := addressFlags id
    idHex := encodeHex id
    idPretty := accountIdToHuman id
    addedAtUnixSec := some now }

def walletAccountAddSeed (raw : Text) (derivationIndex : U32) (seed : Bytes32) (now : U64) :
    Except TextError (WalletAccountEntry × Text) := do
  let wallet ← loadWalletV3Raw L raw
  -- the list was found not to be empty
  let baseline ← Attempt.orFail wallet.accounts.head? (.own "validated non-empty accounts")
  let baselineActual ← (parseAccountId (Text.trim baseline.idHex)).mapError
    (TextError.behind "wallet schema v3 baseline account id_hex is invalid: ")
  Attempt.check (seedAccountId L seed baseline.derivationIndex = baselineActual)
    (.own ("provided master seed does not match existing wallet accounts; " ++
      "refusing to append"))
  let id := seedAccountId L seed derivationIndex
  let idHex := encodeHex id
  Attempt.check (wallet.accounts.all (fun account => !eqIgnoreAsciiCase account.idHex idHex) = true)
    (.own ("wallet schema v3 already contains account id_hex=" ++ String.ofList idHex ++
      " (duplicate)"))
  Attempt.check (∀ account ∈ wallet.accounts, account.derivationIndex ≠ derivationIndex)
    (.own ("wallet schema v3 already contains derivation_index=" ++
      String.ofList (Nat.toDigits 10 derivationIndex.toNat) ++ " (duplicate)"))
  let account := addedAccount baseline derivationIndex id now
  let file ← saveV3Merge L raw { wallet with accounts := wallet.accounts ++ [account] }
  return (⟨account.derivationIndex, account.derivationPath, account.idHex, account.idPretty, false⟩,
    file)

/-- The place of the first row with this id. -/
def accountPosition (accounts : List WalletYamlV3Account) (wantedHex : Text) : Option Nat :=
  accounts.findIdx? fun a => eqIgnoreAsciiCase a.idHex wantedHex

def walletAccountRemove (raw idHex : Text) :
    Except TextError (WalletAccountRemoveResult × Text) := do
  let wallet ← loadWalletV3Raw L raw
  Attempt.check (wallet.accounts.length ≠ 1)
    (.own "wallet account remove refused: cannot remove last account")
  let defaultBefore ← Attempt.orFail (defaultV3Account wallet.accounts)
    (.own "validated non-empty accounts")
  let wanted ← (parseAccountId (Text.trim idHex)).mapError
    (TextError.behind "invalid --id-hex account id: ")
  let idx ← Attempt.orFail (accountPosition wallet.accounts (encodeHex wanted))
    (.own ("wallet schema v3 account id_hex=" ++ String.ofList (encodeHex wanted) ++ " not found"))
  let removed ← Attempt.orFail wallet.accounts[idx]? (.own "")
  let accounts := wallet.accounts.eraseIdx idx
  let newActive ← Attempt.orFail (defaultV3Account accounts)
    (.own "account list is non-empty after guard")
  let file ← saveV3Merge L raw { wallet with accounts := accounts }
  return (⟨removed.idHex, newActive.idHex, eqIgnoreAsciiCase removed.idHex defaultBefore.idHex⟩,
    file)

/-! ## Entries that are written back -/

theorem writesBack_entry : WritesBack AddressBookEntry.read AddressBookEntry.write := by
  intro v entry h
  cases v with
  | string s =>
      obtain rfl := Option.some.inj h
      exact merge_scalar _ rfl
  | mapping m =>
      obtain ⟨address, haddress, h⟩ := Option.bind_eq_some_iff.mp h
      obtain ⟨label, hlabel, h⟩ := Option.bind_eq_some_iff.mp h
      obtain rfl := Option.some.inj h
      refine congrArg Value.mapping (mergeEntries_eq_self fun p hp => ?_)
      rcases List.mem_append.mp hp with hp | hp
      · exact holds_required writesBack_string haddress p hp
      · exact holds_optional writesBack_string hlabel p hp
  | _ => cases h

theorem WalletKeys.holds {m : Mapping} {keys : WalletKeys} (h : read m = some keys) :
    ∀ p ∈ keys.fields, m.Holds p := by
  obtain ⟨hbase, h8, h9, h10, h11⟩ := read_eq_some.mp h
  obtain ⟨h1, h2, h3, h4, h5, h6, h7⟩ := WalletReadKeys.read_eq_some.mp hbase
  intro p hp
  simp only [fields, List.mem_append] at hp
  rcases hp with (((((((((hp | hp) | hp) | hp) | hp) | hp) | hp) | hp) | hp) | hp) | hp
  · exact holds_optional writesBack_string h1 p hp
  · exact holds_optional writesBack_string h8 p hp
  · exact holds_optional writesBack_string h2 p hp
  · exact holds_optional writesBack_string h9 p hp
  · exact holds_optional writesBack_string h10 p hp
  · exact holds_optional writesBack_string h11 p hp
  · exact holds_optional writesBack_string h3 p hp
  · exact holds_optional writesBack_string h4 p hp
  · exact holds_optional writesBack_string h5 p hp
  · exact holds_optional writesBack_string h6 p hp
  · exact holds_optional (writesBack_uint 32) h7 p hp

namespace WalletYamlV3Account

/-- The entries that a row is written as. -/
def fields (row : WalletYamlV3Account) : Mapping :=
  row.toWalletReadV3Account.fields ++ optField "added_at_unix_sec" uint row.addedAtUnixSec

theorem holds {m : Mapping} {row : WalletYamlV3Account} (h : read m = some row) :
    ∀ p ∈ row.fields, m.Holds p := by
  obtain ⟨hrow, h9⟩ := read_eq_some.mp h
  obtain ⟨h1, h2, h3, h4, h5, h6, h7, h8⟩ := WalletReadV3Account.read_eq_some.mp hrow
  intro p hp
  simp only [fields, WalletReadV3Account.fields, List.mem_append] at hp
  rcases hp with (((((((hp | hp) | hp) | hp) | hp) | hp) | hp) | hp) | hp
  · exact holds_required (writesBack_uint 32) h2 p hp
  · exact holds_required writesBack_string h1 p hp
  · exact holds_required (writesBack_uint 16) h3 p hp
  · exact holds_required (writesBack_uint 32) h4 p hp
  · exact holds_required (writesBack_uint 32) h5 p hp
  · exact holds_required (writesBack_uint 32) h6 p hp
  · exact holds_required writesBack_string h7 p hp
  · exact holds_required writesBack_string h8 p hp
  · exact holds_optional (writesBack_uint 64) h9 p hp

theorem writesBack : WritesBack (Value.record read) write :=
  writesBack_record fun _ _ => holds

end WalletYamlV3Account

/-! ## The document that is saved -/

/-- The fields of a wallet before and behind its accounts. -/
def WalletYamlV3.front (wallet : WalletYamlV3) : Mapping :=
  field "schema_version" (uint wallet.schemaVersion) ++
  field "mode" (.string wallet.mode) ++
  field "created_at_unix_sec" (uint wallet.createdAtUnixSec) ++
  optField "country_code_label" .string wallet.countryCodeLabel ++
  optField "active_account_id_hex" .string wallet.activeAccountIdHex

def WalletYamlV3.back (wallet : WalletYamlV3) : Mapping :=
  wallet.toWalletKeys.fields ++ seqField "address_book" AddressBookEntry.write wallet.addressBook

theorem WalletYamlV3.fields_eq (wallet : WalletYamlV3) : wallet.fields =
    wallet.front ++ (named "accounts",
      .sequence (wallet.accounts.map WalletYamlV3Account.write)) :: wallet.back := by
  simp only [fields, front, back, field, List.append_assoc, List.cons_append, List.nil_append]

theorem WalletYamlV3.holds {m : Mapping} {wallet : WalletYamlV3} (h : read m = some wallet) :
    ∀ p ∈ wallet.front ++ wallet.back, m.Holds p := by
  obtain ⟨hkeys, h1, h2, h3, h4, h5, -, hbook⟩ := read_eq_some.mp h
  intro p hp
  simp only [front, back, List.mem_append] at hp
  rcases hp with ((((hp | hp) | hp) | hp) | hp) | (hp | hp)
  · exact holds_required (writesBack_uint 32) h1 p hp
  · exact holds_required writesBack_string h2 p hp
  · exact holds_required (writesBack_uint 64) h3 p hp
  · exact holds_optional writesBack_string h4 p hp
  · exact holds_optional writesBack_string h5 p hp
  · exact WalletKeys.holds hkeys p hp
  · exact holds_defaulted_seq writesBack_entry hbook p hp

theorem WalletKeys.key_of_mem {keys : WalletKeys} {p : Value × Value} (h : p ∈ keys.fields) :
    ∃ name ∈ names, p.1 = named name := by
  simp only [fields, List.mem_append] at h
  rcases h with (((((((((h | h) | h) | h) | h) | h) | h) | h) | h) | h) | h
  all_goals exact ⟨_, by simp [names], key_of_mem_optField h⟩

theorem WalletYamlV3.not_accounts (wallet : WalletYamlV3) :
    ∀ p ∈ wallet.front ++ wallet.back, p.1 ≠ named "accounts" := by
  intro p hp hkey
  simp only [front, back, List.mem_append] at hp
  rcases hp with ((((hp | hp) | hp) | hp) | hp) | (hp | hp)
  · rw [mem_field.mp hp, named_inj] at hkey
    exact absurd hkey (by decide)
  · rw [mem_field.mp hp, named_inj] at hkey
    exact absurd hkey (by decide)
  · rw [mem_field.mp hp, named_inj] at hkey
    exact absurd hkey (by decide)
  · rw [key_of_mem_optField hp, named_inj] at hkey
    exact absurd hkey (by decide)
  · rw [key_of_mem_optField hp, named_inj] at hkey
    exact absurd hkey (by decide)
  · obtain ⟨name, hname, hp⟩ := WalletKeys.key_of_mem hp
    rw [hp, named_inj] at hkey
    subst hkey
    exact absurd hname (by decide)
  · rw [key_of_mem_seqField hp, named_inj] at hkey
    exact absurd hkey (by decide)

/-- The root of the document with these accounts merged in. -/
def savedRoot (m : Mapping) (wallet : WalletYamlV3) (accounts : List WalletYamlV3Account) :
    Mapping :=
  Mapping.remove (mergeEntries m (Mapping.remove { wallet with accounts := accounts }.fields
    (named legacyActiveAccountKey))) (named legacyActiveAccountKey)

section Saved

variable {L} {raw : Text} {m : Mapping} {wallet : WalletYamlV3}

theorem saveV3Merge_eq (hraw : L.yaml.fromStr raw = some (.mapping m))
    (accounts : List WalletYamlV3Account) :
    saveV3Merge L raw { wallet with accounts := accounts } =
      .ok (L.yaml.toStr (.mapping (savedRoot m wallet accounts))) := by
  rw [saveV3Merge, hraw]
  rfl

/-- Everything at the root but the accounts and the legacy marker is kept. -/
theorem find_savedRoot (hread : WalletYamlV3.read m = some wallet)
    (accounts : List WalletYamlV3Account) {key : Value} (haccounts : key ≠ named "accounts")
    (hlegacy : key ≠ named legacyActiveAccountKey) :
    (savedRoot m wallet accounts).find key = m.find key := by
  have hfields := WalletYamlV3.fields_eq { wallet with accounts := accounts }
  rw [savedRoot, find_remove, if_neg hlegacy.symm]
  apply find_mergeEntries_of_same
  intro p hp hkey
  rw [hfields] at hp
  have hmem := (List.mem_filter.mp hp).1
  rcases List.mem_append.mp hmem with hfront | hback
  · rw [← hkey]
    exact WalletYamlV3.holds hread p (List.mem_append_left _ hfront)
  · rcases List.mem_cons.mp hback with rfl | hback
    · exact absurd hkey.symm haccounts
    · rw [← hkey]
      exact WalletYamlV3.holds hread p (List.mem_append_right _ hback)

/-- The rows are merged one by one. -/
theorem accounts_savedRoot {rows : List Value} (hrows : m.get "accounts" = some (.sequence rows))
    (accounts : List WalletYamlV3Account) : (savedRoot m wallet accounts).get "accounts" =
      some (.sequence (mergeItems rows (accounts.map WalletYamlV3Account.write))) := by
  have hne : named "accounts" ≠ named legacyActiveAccountKey := by
    rw [ne_eq, named_inj]
    decide
  have hfields := WalletYamlV3.fields_eq { wallet with accounts := accounts }
  have hother := WalletYamlV3.not_accounts { wallet with accounts := accounts }
  rw [Mapping.get] at hrows
  rw [savedRoot, Mapping.get, find_remove, if_neg hne.symm, hfields, remove_append,
    remove_cons_ne hne, find_mergeEntries_split, hrows]
  · rfl
  · intro p hp
    exact hother p (List.mem_append_left _ (List.mem_filter.mp hp).1)
  · intro p hp
    exact hother p (List.mem_append_right _ (List.mem_filter.mp hp).1)

end Saved

/-! ## Rows -/

/-- The same keys with the same values. -/
def SameRow (before after : Value) : Prop :=
  ∃ m m' : Mapping, before = .mapping m ∧ after = .mapping m' ∧ ∀ key, m'.find key = m.find key

/-- The keys that a row is written with. -/
def WalletYamlV3Account.keys (row : WalletYamlV3Account) : List Value :=
  row.fields.map Prod.fst

/-- Outside the keys that the next row is written with, the row agrees with it. -/
def RowCarries (row next : Value) : Prop :=
  ∃ (m n : Mapping) (account : WalletYamlV3Account), row = .mapping m ∧ next = .mapping n ∧
    WalletYamlV3Account.read n = some account ∧ ∀ key ∉ account.keys, m.find key = n.find key

theorem WalletYamlV3Account.keys_nodup (row : WalletYamlV3Account) : row.keys.Nodup := by
  cases hadded : row.addedAtUnixSec with
  | none =>
      have hkeys : row.keys = ["derivation_index", "derivation_path", "domain_u16",
          "flags_mask_u32", "expected_flags_u32", "flags_derived_u32", "id_hex",
          "id_pretty"].map named := by
        rw [keys, fields, hadded]
        rfl
      rw [hkeys]
      exact List.Nodup.map (fun _ _ => named_inj.mp) (by decide)
  | some added =>
      have hkeys : row.keys = ["derivation_index", "derivation_path", "domain_u16",
          "flags_mask_u32", "expected_flags_u32", "flags_derived_u32", "id_hex", "id_pretty",
          "added_at_unix_sec"].map named := by
        rw [keys, fields, hadded]
        rfl
      rw [hkeys]
      exact List.Nodup.map (fun _ _ => named_inj.mp) (by decide)

theorem WalletYamlV3Account.scalar_of_mem {row : WalletYamlV3Account} {p : Value × Value}
    (h : p ∈ row.fields) : p.2.isScalar = true := by
  simp only [fields, WalletReadV3Account.fields, List.mem_append] at h
  rcases h with (((((((h | h) | h) | h) | h) | h) | h) | h) | h
  · rw [mem_field.mp h]; rfl
  · rw [mem_field.mp h]; rfl
  · rw [mem_field.mp h]; rfl
  · rw [mem_field.mp h]; rfl
  · rw [mem_field.mp h]; rfl
  · rw [mem_field.mp h]; rfl
  · rw [mem_field.mp h]; rfl
  · rw [mem_field.mp h]; rfl
  · cases hadded : row.addedAtUnixSec with
    | none => rw [hadded] at h; cases h
    | some added => rw [hadded] at h; rw [mem_field.mp h]; rfl

/-- An account merged over the row in front of its own leaves its own row exactly when that row
carries what is not written. -/
theorem sameRow_merge_iff {m n : Mapping} {account : WalletYamlV3Account}
    (hread : WalletYamlV3Account.read n = some account) :
    SameRow (.mapping n) (merge (.mapping m) account.write) ↔
      RowCarries (.mapping m) (.mapping n) := by
  have hmerge : merge (.mapping m) account.write = .mapping (mergeEntries m account.fields) := rfl
  have hkey : ∀ key, key ∈ account.keys →
      (mergeEntries m account.fields).find key = n.find key := by
    intro key hkey
    obtain ⟨p, hp, rfl⟩ := List.mem_map.mp hkey
    obtain ⟨o, ho, hsame⟩ := WalletYamlV3Account.holds hread p hp
    have hscalar := WalletYamlV3Account.scalar_of_mem hp
    rw [merge_scalar o hscalar] at hsame
    rw [find_mergeEntries account.keys_nodup hp, ho, ← hsame]
    cases m.find p.1 with
    | none => rfl
    | some old => exact congrArg some (merge_scalar old hscalar)
  have hrest : ∀ key, key ∉ account.keys →
      (mergeEntries m account.fields).find key = m.find key := fun _ =>
    find_mergeEntries_of_not_mem
  rw [hmerge]
  constructor
  · rintro ⟨_, _, hn, hmerged, hsame⟩
    obtain rfl := Value.mapping.inj hn
    obtain rfl := Value.mapping.inj hmerged
    refine ⟨m, n, account, rfl, rfl, hread, fun key hnot => ?_⟩
    rw [← hrest key hnot]
    exact hsame key
  · rintro ⟨_, _, account', hm, hn, hread', hcarries⟩
    obtain rfl := Value.mapping.inj hm
    obtain rfl := Value.mapping.inj hn
    obtain rfl := Option.some.inj (hread.symm.trans hread')
    refine ⟨n, _, rfl, rfl, fun key => ?_⟩
    by_cases hmem : key ∈ account.keys
    · exact hkey key hmem
    · exact (hrest key hmem).trans (hcarries key hmem)

/-- The rows are read as these accounts, one for one. -/
def ReadsRows (rows : List Value) (accounts : List WalletYamlV3Account) : Prop :=
  List.Forall₂ (fun v row => Value.record WalletYamlV3Account.read v = some row) rows accounts

theorem mapping_of_record {v : Value} {row : WalletYamlV3Account}
    (h : Value.record WalletYamlV3Account.read v = some row) :
    ∃ m, v = .mapping m ∧ WalletYamlV3Account.read m = some row := by
  cases v with
  | mapping m => exact ⟨m, rfl, h⟩
  | _ => cases h

theorem sameRow_refl {v : Value} {row : WalletYamlV3Account}
    (h : Value.record WalletYamlV3Account.read v = some row) : SameRow v v := by
  obtain ⟨m, rfl, -⟩ := mapping_of_record h
  exact ⟨m, m, rfl, rfl, fun _ => rfl⟩

theorem read_of_mem {rows : List Value} {accounts : List WalletYamlV3Account}
    (h : ReadsRows rows accounts) {v : Value} (hv : v ∈ rows) :
    ∃ row, Value.record WalletYamlV3Account.read v = some row := by
  induction h with
  | nil => cases hv
  | cons hrow _ ih =>
      rcases List.mem_cons.mp hv with rfl | hv
      · exact ⟨_, hrow⟩
      · exact ih hv

/-- Rows merged with their neighbours' accounts come out as the neighbours exactly when each row
carries the next one. -/
theorem sameRows_shift_iff {v : Value} {a : WalletYamlV3Account} {rows : List Value}
    {accounts : List WalletYamlV3Account} (h : ReadsRows (v :: rows) (a :: accounts)) :
    List.Forall₂ SameRow rows
        (mergeItems (v :: rows) (accounts.map WalletYamlV3Account.write)) ↔
      List.IsChain RowCarries (v :: rows) := by
  induction rows generalizing v a accounts with
  | nil =>
      cases h with
      | cons _ hrest =>
          cases hrest
          exact iff_of_true .nil (List.isChain_singleton v)
  | cons w rest ih =>
      cases h with
      | cons hv hrest =>
          cases hrest with
          | @cons _ b _ bs hw hmore =>
              obtain ⟨m, rfl, -⟩ := mapping_of_record hv
              obtain ⟨n, rfl, hn⟩ := mapping_of_record hw
              rw [List.map_cons, mergeItems, List.forall₂_cons, List.isChain_cons_cons,
                sameRow_merge_iff hn]
              exact and_congr_right fun _ => ih (.cons hw hmore)

/-- Behind a removed row each row has to carry the next one, and nothing else is asked. -/
theorem sameRows_remove_iff {rows : List Value} {accounts : List WalletYamlV3Account} {idx : Nat}
    (hidx : idx < rows.length) (h : ReadsRows rows accounts) :
    List.Forall₂ SameRow (rows.eraseIdx idx)
        (mergeItems rows ((accounts.eraseIdx idx).map WalletYamlV3Account.write)) ↔
      List.IsChain RowCarries (rows.drop idx) := by
  induction idx generalizing rows accounts with
  | zero =>
      cases h with
      | nil => exact absurd hidx (Nat.not_lt_zero 0)
      | cons hv hrest => exact sameRows_shift_iff (.cons hv hrest)
  | succ idx ih =>
      cases h with
      | nil => exact absurd hidx (Nat.not_lt_zero _)
      | cons hv hrest =>
          rw [List.eraseIdx_cons_succ, List.eraseIdx_cons_succ, List.map_cons, mergeItems,
            List.forall₂_cons, List.drop_succ_cons,
            WalletYamlV3Account.writesBack _ _ hv]
          rw [ih (Nat.lt_of_succ_lt_succ hidx) hrest]
          exact and_iff_right (sameRow_refl hv)

/-! ## What an edit keeps -/

inductive AccountEdit
  | addSeed (derivationIndex : U32) (seed : Bytes32) (now : U64)
  | remove (idHex : Text)

namespace AccountEdit

/-- The file after the edit. -/
def run (raw : Text) : AccountEdit → Except TextError Text
  | addSeed derivationIndex seed now =>
      (walletAccountAddSeed L raw derivationIndex seed now).map Prod.snd
  | remove idHex => (walletAccountRemove L raw idHex).map Prod.snd

/-- The rows that the edit is to leave: one more for the new account, or one less. -/
def RowsAfter (wallet : WalletYamlV3) (rows after : List Value) : AccountEdit → Prop
  | addSeed derivationIndex seed _ => ∃ account : WalletYamlV3Account,
      account.derivationIndex = derivationIndex ∧
      account.idHex = encodeHex (seedAccountId L seed derivationIndex) ∧
      after = rows ++ [account.write]
  | remove idHex => ∃ id idx, parseAccountId (Text.trim idHex) = .ok id ∧
      accountPosition wallet.accounts (encodeHex id) = some idx ∧ after = rows.eraseIdx idx

/-- The rows are the ones to be left, each with its keys and values, and everything else at the
root but the legacy marker is as it was. -/
structure Keeps (edit : AccountEdit) (m m' : Mapping) : Prop where
  rows : ∃ wallet rows after rows', WalletYamlV3.read m = some wallet ∧
    m.get "accounts" = some (.sequence rows) ∧ edit.RowsAfter L wallet rows after ∧
    m'.get "accounts" = some (.sequence rows') ∧ List.Forall₂ SameRow after rows'
  root : ∀ key, key ≠ named "accounts" → key ≠ named legacyActiveAccountKey →
    m'.find key = m.find key

/-- From the removed row on each row agrees with the next one on what that one is not written
with. -/
def RowsCarry (m : Mapping) : AccountEdit → Prop
  | addSeed _ _ _ => True
  | remove idHex => ∀ wallet rows id idx, WalletYamlV3.read m = some wallet →
      m.get "accounts" = some (.sequence rows) → parseAccountId (Text.trim idHex) = .ok id →
      accountPosition wallet.accounts (encodeHex id) = some idx →
      List.IsChain RowCarries (rows.drop idx)

end AccountEdit

section Edits

variable {L} {raw : Text} {m : Mapping}

theorem loadWalletV3Raw_ok {wallet : WalletYamlV3}
    (hraw : L.yaml.fromStr raw = some (.mapping m)) (h : loadWalletV3Raw L raw = .ok wallet) :
    WalletYamlV3.read m = some wallet ∧ wallet.accounts ≠ [] := by
  rw [loadWalletV3Raw] at h
  simp only [Attempt.except_bind_ok_iff, Attempt.check_ok_iff] at h
  obtain ⟨-, -, -, -, w, hread, -, -, -, hne, hout⟩ := h
  obtain rfl := Except.ok.inj hout
  obtain ⟨m', hm', hread⟩ := fromStr_ok_iff.mp hread
  obtain rfl := Value.mapping.inj (Option.some.inj (hraw.symm.trans hm'))
  exact ⟨hread, hne⟩

theorem rows_of_read {wallet : WalletYamlV3} (hread : WalletYamlV3.read m = some wallet)
    (hne : wallet.accounts ≠ []) :
    ∃ rows, m.get "accounts" = some (.sequence rows) ∧ ReadsRows rows wallet.accounts := by
  obtain ⟨-, -, -, -, -, -, haccounts, -⟩ := WalletYamlV3.read_eq_some.mp hread
  obtain ⟨v, hv, hseq⟩ := Option.bind_eq_some_iff.mp haccounts
  obtain ⟨rows, rfl⟩ := sequence_of_readSeq hne hseq
  exact ⟨rows, hv, forall₂_of_readSeq hseq⟩

theorem walletAccountAddSeed_ok {derivationIndex : U32} {seed : Bytes32} {now : U64}
    {entry : WalletAccountEntry} {file : Text} (hraw : L.yaml.fromStr raw = some (.mapping m))
    (h : walletAccountAddSeed L raw derivationIndex seed now = .ok (entry, file)) :
    ∃ wallet baseline, WalletYamlV3.read m = some wallet ∧ wallet.accounts ≠ [] ∧
      file = L.yaml.toStr (.mapping (savedRoot m wallet (wallet.accounts ++
        [addedAccount baseline derivationIndex (seedAccountId L seed derivationIndex) now]))) := by
  rw [walletAccountAddSeed] at h
  simp only [Attempt.except_bind_ok_iff, Attempt.check_ok_iff, Attempt.orFail_ok_iff] at h
  obtain ⟨wallet, hload, baseline, -, -, -, -, -, -, -, -, -, file', hsave, hout⟩ := h
  obtain ⟨hread, hne⟩ := loadWalletV3Raw_ok hraw hload
  obtain ⟨-, rfl⟩ := Prod.mk.inj (Except.ok.inj hout)
  rw [saveV3Merge_eq hraw] at hsave
  exact ⟨wallet, baseline, hread, hne, (Except.ok.inj hsave).symm⟩

theorem walletAccountRemove_ok {idHex : Text} {result : WalletAccountRemoveResult} {file : Text}
    (hraw : L.yaml.fromStr raw = some (.mapping m))
    (h : walletAccountRemove L raw idHex = .ok (result, file)) :
    ∃ wallet id idx, WalletYamlV3.read m = some wallet ∧ wallet.accounts ≠ [] ∧
      parseAccountId (Text.trim idHex) = .ok id ∧
      accountPosition wallet.accounts (encodeHex id) = some idx ∧
      file = L.yaml.toStr (.mapping (savedRoot m wallet (wallet.accounts.eraseIdx idx))) := by
  rw [walletAccountRemove] at h
  simp only [Attempt.except_bind_ok_iff, Attempt.check_ok_iff, Attempt.orFail_ok_iff,
    Attempt.mapError_ok_iff] at h
  obtain ⟨wallet, hload, _, -, _, -, id, hid, idx, hidx, _, -, _, -, file', hsave, hout⟩ := h
  obtain ⟨hread, hne⟩ := loadWalletV3Raw_ok hraw hload
  obtain ⟨-, rfl⟩ := Prod.mk.inj (Except.ok.inj hout)
  rw [saveV3Merge_eq hraw] at hsave
  exact ⟨wallet, id, idx, hread, hne, hid, hidx, (Except.ok.inj hsave).symm⟩

theorem accountPosition_lt {accounts : List WalletYamlV3Account} {wantedHex : Text} {idx : Nat}
    (h : accountPosition accounts wantedHex = some idx) : idx < accounts.length :=
  (List.findIdx?_eq_some_iff_getElem.mp h).choose

/-- The document after accounts were added. -/
theorem added_keeps (hY : L.yaml.RoundTrips) {derivationIndex : U32} {seed : Bytes32} {now : U64}
    {entry : WalletAccountEntry} {file : Text} (hraw : L.yaml.fromStr raw = some (.mapping m))
    (h : walletAccountAddSeed L raw derivationIndex seed now = .ok (entry, file)) :
    ∃ m', L.yaml.fromStr file = some (.mapping m') ∧
      (AccountEdit.addSeed derivationIndex seed now).Keeps L m m' := by
  obtain ⟨wallet, baseline, hread, hne, rfl⟩ := walletAccountAddSeed_ok hraw h
  obtain ⟨rows, hrows, hreads⟩ := rows_of_read hread hne
  let account := addedAccount baseline derivationIndex (seedAccountId L seed derivationIndex) now
  have hmerge : mergeItems rows
      ((wallet.accounts ++ [account]).map WalletYamlV3Account.write) = rows ++ [account.write] := by
    rw [List.map_append]
    exact mergeItems_append WalletYamlV3Account.writesBack hreads [account.write]
  have hsame : List.Forall₂ SameRow (rows ++ [account.write]) (rows ++ [account.write]) := by
    apply List.forall₂_same.mpr
    intro v hv
    rcases List.mem_append.mp hv with hv | hv
    · obtain ⟨row, hrow⟩ := read_of_mem hreads hv
      exact sameRow_refl hrow
    · rw [List.mem_singleton.mp hv]
      exact sameRow_refl (WalletYamlV3Account.writes.read_write account)
  refine ⟨_, hY _, ⟨⟨wallet, rows, _, _, hread, hrows, ⟨account, rfl, rfl, rfl⟩, ?_, hsame⟩, ?_⟩⟩
  · rw [accounts_savedRoot hrows, hmerge]
  · exact fun key => find_savedRoot hread _

/-- The document after an account was removed. -/
theorem removed_keeps_iff (hY : L.yaml.RoundTrips) {idHex : Text}
    {result : WalletAccountRemoveResult} {file : Text}
    (hraw : L.yaml.fromStr raw = some (.mapping m))
    (h : walletAccountRemove L raw idHex = .ok (result, file)) :
    (∃ m', L.yaml.fromStr file = some (.mapping m') ∧ (AccountEdit.remove idHex).Keeps L m m') ↔
      (AccountEdit.remove idHex).RowsCarry m := by
  obtain ⟨wallet, id, idx, hread, hne, hid, hidx, rfl⟩ := walletAccountRemove_ok hraw h
  obtain ⟨rows, hrows, hreads⟩ := rows_of_read hread hne
  have hlt : idx < rows.length := by
    rw [hreads.length_eq]
    exact accountPosition_lt hidx
  have hshift := sameRows_remove_iff hlt hreads
  have hsaved : (savedRoot m wallet (wallet.accounts.eraseIdx idx)).get "accounts" = _ :=
    accounts_savedRoot hrows _
  constructor
  · rintro ⟨m', hm', hkeeps⟩ w rows' id' idx' hread' hrows' hid' hidx'
    obtain rfl := Value.mapping.inj (Option.some.inj ((hY _).symm.trans hm'))
    obtain rfl := Option.some.inj (hread.symm.trans hread')
    obtain rfl := Value.sequence.inj (Option.some.inj (hrows.symm.trans hrows'))
    obtain rfl := Except.ok.inj (hid.symm.trans hid')
    obtain rfl := Option.some.inj (hidx.symm.trans hidx')
    obtain ⟨w, rows', after, rows'', hw, hr, ⟨id2, idx2, hid2, hidx2, rfl⟩, hafter, hsame⟩ :=
      hkeeps.rows
    obtain rfl := Option.some.inj (hread.symm.trans hw)
    obtain rfl := Value.sequence.inj (Option.some.inj (hrows.symm.trans hr))
    obtain rfl := Except.ok.inj (hid.symm.trans hid2)
    obtain rfl := Option.some.inj (hidx.symm.trans hidx2)
    obtain rfl := Value.sequence.inj (Option.some.inj (hsaved.symm.trans hafter))
    exact hshift.mp hsame
  · intro hcarry
    have hsame := hshift.mpr (hcarry wallet rows id idx hread hrows hid hidx)
    exact ⟨_, hY _, ⟨⟨wallet, rows, _, _, hread, hrows, ⟨id, idx, hid, hidx, rfl⟩, hsaved, hsame⟩,
      fun key => find_savedRoot hread _⟩⟩

/-- An edit keeps the other accounts and the rest of the document exactly when it adds an account,
or the rows from the removed one on carry each what the next one is not written with. -/
theorem accountEdit_keeps_iff (L : WalletLib) (hY : L.yaml.RoundTrips) {raw file : Text}
    {m : Mapping} {edit : AccountEdit} (hraw : L.yaml.fromStr raw = some (.mapping m))
    (h : edit.run L raw = .ok file) :
    (∃ m', L.yaml.fromStr file = some (.mapping m') ∧ edit.Keeps L m m') ↔ edit.RowsCarry m := by
  cases edit with
  | addSeed derivationIndex seed now =>
      rw [AccountEdit.run] at h
      cases hadd : walletAccountAddSeed L raw derivationIndex seed now with
      | error e => rw [hadd] at h; cases h
      | ok p =>
          rw [hadd] at h
          obtain rfl := Except.ok.inj h
          exact iff_of_true (added_keeps hY hraw hadd) trivial
  | remove idHex =>
      rw [AccountEdit.run] at h
      cases hremove : walletAccountRemove L raw idHex with
      | error e => rw [hremove] at h; cases h
      | ok p =>
          rw [hremove] at h
          obtain rfl := Except.ok.inj h
          exact removed_keeps_iff hY hraw hremove

end Edits

/-! ## A dated row in front of one without a date -/

namespace DatedRow

open LegacyRow

def other : AccountId :=
  0x2c7e0000000000000000000000000000000000000000000000000000000000bb#256

def dated : WalletYamlV3Account where
  derivationPath := "m/0/0".toList
  derivationIndex := 0#32
  domainU16 := 0x2c7e#16
  flagsMaskU32 := 1023#32
  expectedFlagsU32 := 0#32
  flagsDerivedU32 := 0#32
  idHex := encodeHex owner
  idPretty := accountIdToHuman owner
  addedAtUnixSec := some 1700000000#64

def undated : WalletYamlV3Account where
  derivationPath := "m/0/1".toList
  derivationIndex := 1#32
  domainU16 := 0x2c7e#16
  flagsMaskU32 := 1023#32
  expectedFlagsU32 := 0#32
  flagsDerivedU32 := 0#32
  idHex := encodeHex other
  idPretty := accountIdToHuman other
  addedAtUnixSec := none

def accounts : WalletYamlV3 where
  toWalletKeys := wallet.toWalletKeys
  schemaVersion := 3#32
  mode := wallet.mode
  createdAtUnixSec := wallet.createdAtUnixSec
  countryCodeLabel := none
  activeAccountIdHex := none
  accounts := [dated, undated]
  addressBook := []

def accountsFile : Text :=
  lib.yaml.toStr (.mapping accounts.fields)

def removedFile : Text :=
  lib.yaml.toStr (.mapping (savedRoot accounts.fields accounts [undated]))

def removeFirst : AccountEdit :=
  .remove (encodeHex owner)

theorem document : lib.yaml.fromStr accountsFile = some (.mapping accounts.fields) := by
  rw [accountsFile]
  exact roundTrips _

theorem loads_raw : loadWalletV3Raw lib accountsFile = .ok accounts := by
  have hversion : accounts.fields.optional "schema_version" (readUint 32) = some (some 3#32) := by
    decide
  have hschema : detectSchemaVersion lib accountsFile = .ok 3#32 :=
    detectSchemaVersion_ok_iff.mpr ⟨_, _, document, hversion, rfl⟩
  have hread : fromStr lib WalletYamlV3.read accountsFile = .ok accounts :=
    fromStr_ok_iff.mpr ⟨_, document, accounts.read_fields⟩
  have hpaths : validateV3DerivationPaths accounts = .ok () := by decide
  rw [loadWalletV3Raw]
  simp only [Attempt.except_bind_ok_iff, Attempt.check_ok_iff]
  exact ⟨_, hschema, (), rfl, accounts, hread, (), hpaths, (), by decide, rfl⟩

theorem removes_first : walletAccountRemove lib accountsFile (encodeHex owner) =
    .ok (⟨dated.idHex, undated.idHex, true⟩, removedFile) := by
  have hid : parseAccountId (Text.trim (encodeHex owner)) = .ok owner := by decide
  have hdefault : defaultV3Account accounts.accounts = some dated := by decide
  have hposition : accountPosition accounts.accounts (encodeHex owner) = some 0 := by
    decide
  rw [walletAccountRemove]
  simp only [Attempt.except_bind_ok_iff, Attempt.check_ok_iff, Attempt.orFail_ok_iff,
    Attempt.mapError_ok_iff]
  exact ⟨accounts, loads_raw, (), by decide, dated, hdefault, owner, hid, 0, hposition, dated,
    rfl, undated, rfl, removedFile, saveV3Merge_eq document _, by decide +kernel⟩

theorem removes : removeFirst.run lib accountsFile = .ok removedFile := by
  rw [removeFirst, AccountEdit.run, removes_first]
  rfl

theorem accountEdit_keeps_iff_first :
    (∃ m', lib.yaml.fromStr removedFile = some (.mapping m') ∧
      removeFirst.Keeps lib accounts.fields m') ↔ removeFirst.RowsCarry accounts.fields :=
  accountEdit_keeps_iff lib roundTrips document removes

/-- The row that is left takes on the date of the removed one. -/
theorem date_moves : ¬ ∀ (L : WalletLib) (raw file : Text) (m : Mapping) (edit : AccountEdit),
    L.yaml.RoundTrips → L.yaml.fromStr raw = some (.mapping m) → edit.run L raw = .ok file →
    ∃ m', L.yaml.fromStr file = some (.mapping m') ∧ edit.Keeps L m m' := by
  intro h
  have hkeeps := h lib accountsFile removedFile accounts.fields removeFirst roundTrips document
    removes
  have hcarry := (removed_keeps_iff roundTrips document removes_first).mp hkeeps
  have hrows : accounts.fields.get "accounts" =
      some (.sequence [dated.write, undated.write]) := by decide
  have hid : parseAccountId (Text.trim (encodeHex owner)) = .ok owner := by decide
  have hposition : accountPosition accounts.accounts (encodeHex owner) = some 0 := by
    decide
  have hchain := hcarry accounts _ owner 0 accounts.read_fields hrows hid hposition
  obtain ⟨m, n, account, hm, hn, hread, hsame⟩ := (List.isChain_cons_cons.mp hchain).1
  obtain rfl := Value.mapping.inj hm
  obtain rfl := Value.mapping.inj hn
  have hundated : WalletYamlV3Account.read undated.fields = some undated :=
    WalletYamlV3Account.writes.read_write undated
  obtain rfl := Option.some.inj (hundated.symm.trans hread)
  have hdate := hsame (named "added_at_unix_sec") (by decide)
  have hne : ¬ Mapping.find dated.fields (named "added_at_unix_sec") =
      Mapping.find undated.fields (named "added_at_unix_sec") := by decide
  exact hne hdate

end DatedRow

end Pwm
