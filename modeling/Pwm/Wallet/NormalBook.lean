import Pwm.Wallet.ReadHeader

/-!
# The address book of a loaded wallet

Rows in the pretty form are left out, the other ones come out in their order
with their accounts in bech32. Both readers of a wallet agree on the rows and on
how many are left out; the reader of headers also says whether a row changed.
-/

namespace Pwm

namespace AddressBookEntry

/-- The row is in the pretty form. -/
def pretty (entry : AddressBookEntry) : Bool :=
  isLegacyPrettyAddress entry.addressStr

/-- A row as it comes out for a row with an account. -/
def NormalOf (entry row : AddressBookEntry) : Prop :=
  ∃ id, entry.accountId = .ok id ∧ entry.canonical id = row

/-- The row does not come out as it is, white space around its address aside. -/
def stale (entry : AddressBookEntry) : Bool :=
  entry.pretty || match entry.accountId with
    | .ok id => decide (Text.trim entry.addressStr ≠ accountIdToBech32dx id)
    | .error _ => false

theorem addressStr_canonical (entry : AddressBookEntry) (id : AccountId) :
    (entry.canonical id).addressStr = accountIdToBech32dx id := by
  cases entry <;> rfl

theorem accountId_of_bech32dx {entry : AddressBookEntry} {id : AccountId}
    (h : entry.addressStr = accountIdToBech32dx id) : entry.accountId = .ok id := by
  rw [accountId, h, trim_bech32dx]
  exact parseAcctIdChecked_bech32dx false id

theorem accountId_canonical (entry : AddressBookEntry) (id : AccountId) :
    (entry.canonical id).accountId = .ok id :=
  accountId_of_bech32dx (entry.addressStr_canonical id)

/-- A bech32 text has no dash. -/
theorem pretty_of_bech32dx {entry : AddressBookEntry} {id : AccountId}
    (h : entry.addressStr = accountIdToBech32dx id) : entry.pretty = false := by
  rw [pretty, isLegacyPrettyAddress, h, trim_bech32dx]
  have hstrip := stripPretty_bech32dx id
  rw [Text.stripPrefix] at hstrip
  by_cases hfront : "pwm1-".toList.isPrefixOf (accountIdToBech32dx id) = true
  · rw [if_pos hfront] at hstrip
    cases hstrip
  · exact Bool.eq_false_iff.mpr hfront

theorem canonical_of_bech32dx {entry : AddressBookEntry} {id : AccountId}
    (h : entry.addressStr = accountIdToBech32dx id) : entry.canonical id = entry := by
  cases entry with
  | addressOnly address => rw [canonical, ← h]; rfl
  | withLabel address label => rw [canonical, ← h]; rfl

theorem NormalOf.row_address {entry row : AddressBookEntry} (h : entry.NormalOf row) :
    ∃ id, entry.accountId = .ok id ∧ row.addressStr = accountIdToBech32dx id := by
  obtain ⟨id, hid, rfl⟩ := h
  exact ⟨id, hid, entry.addressStr_canonical id⟩

end AddressBookEntry

open AddressBookEntry

theorem bookEntryId_ok_iff {idx : Nat} {entry : AddressBookEntry} {id : AccountId} :
    bookEntryId idx entry = .ok id ↔ entry.accountId = .ok id :=
  Attempt.mapError_ok_iff

/-! ## The rows that come out -/

/-- The rows that are not in the pretty form come out one for one. -/
theorem normalizeBookFrom_ok_iff {idx : Nat} {entries book : List AddressBookEntry}
    {ignored : Nat} : normalizeBookFrom idx entries = .ok (book, ignored) ↔
      List.Forall₂ NormalOf (entries.filter fun e => !e.pretty) book ∧
        entries.countP pretty = ignored := by
  induction entries generalizing idx book ignored with
  | nil =>
      rw [normalizeBookFrom, Except.ok.injEq, Prod.mk.injEq, List.filter_nil, List.countP_nil,
        List.forall₂_nil_left_iff]
      exact and_congr_left fun _ => eq_comm
  | cons entry rest ih =>
      rw [normalizeBookFrom]
      by_cases hpretty : entry.pretty = true
      · have hlegacy : isLegacyPrettyAddress entry.addressStr = true := hpretty
        have hmap : (normalizeBookFrom (idx + 1) rest).map (fun p => (p.1, p.2 + 1)) =
            .ok (book, ignored) ↔
            ∃ n, normalizeBookFrom (idx + 1) rest = .ok (book, n) ∧ n + 1 = ignored := by
          cases normalizeBookFrom (idx + 1) rest with
          | error e => exact iff_of_false (fun h => by cases h) (by simp)
          | ok p => simp [Except.map, Prod.ext_iff, eq_comm]
        rw [if_pos hlegacy, hmap, List.filter_cons_of_neg (by simp [hpretty]),
          List.countP_cons_of_pos hpretty]
        constructor
        · rintro ⟨n, hn, rfl⟩
          obtain ⟨hrows, rfl⟩ := ih.mp hn
          exact ⟨hrows, rfl⟩
        · rintro ⟨hrows, rfl⟩
          exact ⟨_, ih.mpr ⟨hrows, rfl⟩, rfl⟩
      · have hlegacy : ¬ isLegacyPrettyAddress entry.addressStr = true := hpretty
        rw [if_neg hlegacy, List.filter_cons_of_pos (by simpa using hpretty),
          List.countP_cons_of_neg hpretty]
        simp only [Attempt.except_bind_ok_iff, bookEntryId_ok_iff]
        constructor
        · rintro ⟨id, hid, ⟨rows, n⟩, hp, hout⟩
          obtain ⟨hrows, rfl⟩ := ih.mp hp
          obtain ⟨rfl, rfl⟩ := Prod.mk.inj (Except.ok.inj hout)
          exact ⟨.cons ⟨id, hid, rfl⟩ hrows, rfl⟩
        · rintro ⟨hrows, rfl⟩
          cases hrows with
          | cons hrow hrest =>
              obtain ⟨id, hid, rfl⟩ := hrow
              exact ⟨id, hid, _, ih.mpr ⟨hrest, rfl⟩, rfl⟩

theorem normalizeAddressBookEntries_ok_iff {entries book : List AddressBookEntry}
    {ignored : Nat} : normalizeAddressBookEntries entries = .ok (book, ignored) ↔
      List.Forall₂ NormalOf (entries.filter fun e => !e.pretty) book ∧
        entries.countP pretty = ignored :=
  normalizeBookFrom_ok_iff

/-- Rows with their accounts in bech32 come out as they are. -/
theorem normalize_bech32dx {book : List AddressBookEntry}
    (h : ∀ row ∈ book, ∃ id, row.addressStr = accountIdToBech32dx id) :
    normalizeAddressBookEntries book = .ok (book, 0) := by
  have hplain : ∀ row ∈ book, row.pretty = false := by
    intro row hrow
    obtain ⟨id, hid⟩ := h row hrow
    exact pretty_of_bech32dx hid
  rw [normalizeAddressBookEntries_ok_iff, List.filter_eq_self.mpr (by simpa using hplain)]
  refine ⟨List.forall₂_same.mpr fun row hrow => ?_, ?_⟩
  · obtain ⟨id, hid⟩ := h row hrow
    exact ⟨id, accountId_of_bech32dx hid, canonical_of_bech32dx hid⟩
  · exact List.countP_eq_zero.mpr (by simpa using hplain)

section Rows

variable {entries book : List AddressBookEntry} {ignored : Nat}

theorem normal_rows (h : normalizeAddressBookEntries entries = .ok (book, ignored))
    {row : AddressBookEntry} (hrow : row ∈ book) : ∃ id, row.addressStr = accountIdToBech32dx id := by
  have hrows := (normalizeAddressBookEntries_ok_iff.mp h).1
  clear h
  generalize entries.filter (fun e => !e.pretty) = kept at hrows
  induction hrows with
  | nil => cases hrow
  | cons hhead _ ih =>
      rcases List.mem_cons.mp hrow with rfl | htail
      · obtain ⟨id, -, hid⟩ := hhead.row_address
        exact ⟨id, hid⟩
      · exact ih htail

/-- A row that is not in the pretty form has an account. -/
theorem normal_entry (h : normalizeAddressBookEntries entries = .ok (book, ignored))
    {entry : AddressBookEntry} (hentry : entry ∈ entries) (hplain : entry.pretty = false) :
    ∃ id, entry.accountId = .ok id := by
  have hrows := (normalizeAddressBookEntries_ok_iff.mp h).1
  have hkept : entry ∈ entries.filter fun e => !e.pretty :=
    List.mem_filter.mpr ⟨hentry, by simpa using hplain⟩
  clear h hentry
  generalize entries.filter (fun e => !e.pretty) = kept at hrows hkept
  induction hrows with
  | nil => cases hkept
  | cons hhead _ ih =>
      rcases List.mem_cons.mp hkept with rfl | htail
      · obtain ⟨id, hid, -⟩ := hhead
        exact ⟨id, hid⟩
      · exact ih htail

/-- Rows of which none is stale come out as they are when there is no white space around their
addresses. -/
theorem normal_eq_iff (h : normalizeAddressBookEntries entries = .ok (book, ignored))
    (hfresh : entries.any stale = false) :
    book = entries ↔ ∀ entry ∈ entries, Text.trim entry.addressStr = entry.addressStr := by
  constructor
  · rintro rfl entry hentry
    obtain ⟨id, hid⟩ := normal_rows h hentry
    rw [hid, trim_bech32dx]
  · intro htrim
    have hrows : ∀ entry ∈ entries, ∃ id, entry.addressStr = accountIdToBech32dx id := by
      intro entry hentry
      have hstale := List.any_eq_false.mp hfresh entry hentry
      rw [stale, Bool.or_eq_true, not_or] at hstale
      obtain ⟨id, hid⟩ := normal_entry h hentry (Bool.eq_false_iff.mpr hstale.1)
      have hsame := hstale.2
      rw [hid, decide_eq_true_eq, not_not, htrim entry hentry] at hsame
      exact ⟨id, hsame⟩
    rw [normalize_bech32dx hrows] at h
    exact (Prod.mk.inj (Except.ok.inj h)).1.symm

/-- The rows that come out name the accounts of the rows that are not in the pretty form. -/
theorem normal_accounts (h : normalizeAddressBookEntries entries = .ok (book, ignored))
    (id : AccountId) : (∃ row ∈ book, row.accountId = .ok id) ↔
      ∃ entry ∈ entries, entry.pretty = false ∧ entry.accountId = .ok id := by
  have hrows := (normalizeAddressBookEntries_ok_iff.mp h).1
  have hkept : (∃ row ∈ book, row.accountId = .ok id) ↔
      ∃ entry ∈ entries.filter fun e => !e.pretty, entry.accountId = .ok id := by
    clear h
    generalize entries.filter (fun e => !e.pretty) = kept at hrows ⊢
    induction hrows with
    | nil => exact iff_of_false (by simp) (by simp)
    | cons hhead _ ih =>
        obtain ⟨id', hid', hrow⟩ := hhead.row_address
        have hsame := accountId_of_bech32dx hrow
        simp only [List.mem_cons, exists_eq_or_imp, ih, hid', hsame]
  rw [hkept]
  constructor
  · rintro ⟨entry, hmem, hid⟩
    obtain ⟨hentry, hplain⟩ := List.mem_filter.mp hmem
    exact ⟨entry, hentry, by simpa using hplain, hid⟩
  · rintro ⟨entry, hentry, hplain, hid⟩
    exact ⟨entry, List.mem_filter.mpr ⟨hentry, by simpa using hplain⟩, hid⟩

/-- One more row in bech32 comes out behind the others. -/
theorem normalize_concat (h : normalizeAddressBookEntries entries = .ok (book, ignored))
    {row : AddressBookEntry} {id : AccountId}
    (hrow : row.addressStr = accountIdToBech32dx id) :
    normalizeAddressBookEntries (entries ++ [row]) = .ok (book ++ [row], ignored) := by
  obtain ⟨hrows, hcount⟩ := normalizeAddressBookEntries_ok_iff.mp h
  have hplain := pretty_of_bech32dx hrow
  have hone : List.Forall₂ NormalOf [row] [row] :=
    .cons ⟨id, accountId_of_bech32dx hrow, canonical_of_bech32dx hrow⟩ .nil
  rw [normalizeAddressBookEntries_ok_iff, List.filter_append,
    List.filter_cons_of_pos (by simp [hplain]), List.filter_nil, List.countP_append,
    List.countP_cons_of_neg (by simp [hplain]), List.countP_nil]
  exact ⟨List.rel_append hrows hone, hcount⟩

end Rows

/-! ## Both readers -/

/-- The reader of headers takes the same rows, and says whether one of them was stale. -/
theorem normalizeHeaderBookFrom_eq (idx : Nat) (entries : List AddressBookEntry) :
    normalizeHeaderBookFrom idx entries =
      (normalizeBookFrom idx entries).map fun p => (p.1, entries.any stale, p.2) := by
  induction entries generalizing idx with
  | nil => rfl
  | cons entry rest ih =>
      rw [normalizeHeaderBookFrom, normalizeBookFrom, List.any_cons, ih]
      by_cases hpretty : entry.pretty = true
      · have hlegacy : isLegacyPrettyAddress entry.addressStr = true := hpretty
        have hstale : entry.stale = true := by rw [stale, hpretty, Bool.true_or]
        rw [if_pos hlegacy, if_pos hlegacy, hstale]
        cases normalizeBookFrom (idx + 1) rest <;> rfl
      · have hlegacy : ¬ isLegacyPrettyAddress entry.addressStr = true := hpretty
        rw [if_neg hlegacy, if_neg hlegacy]
        cases hid : entry.accountId with
        | error e => rw [bookEntryId, hid]; rfl
        | ok id =>
            have hstale : entry.stale =
                decide (Text.trim entry.addressStr ≠ accountIdToBech32dx id) := by
              rw [stale, Bool.eq_false_iff.mpr hpretty, hid, Bool.false_or]
            rw [bookEntryId, hid, hstale]
            cases normalizeBookFrom (idx + 1) rest <;> rfl

theorem normalizeHeaderBook_ok_iff {entries book : List AddressBookEntry} {changed : Bool}
    {ignored : Nat} : normalizeHeaderBook entries = .ok (book, changed, ignored) ↔
      normalizeAddressBookEntries entries = .ok (book, ignored) ∧ entries.any stale = changed := by
  rw [normalizeHeaderBook, normalizeHeaderBookFrom_eq, normalizeAddressBookEntries]
  cases hbook : normalizeBookFrom 0 entries with
  | error e => exact iff_of_false (fun h => by cases h) (fun h => by cases h.1)
  | ok p =>
      obtain ⟨rows, n⟩ := p
      -- a row that was left out was stale
      have hshort : (entries.any stale || decide (rows.length ≠ entries.length)) =
          entries.any stale := by
        cases hany : entries.any stale with
        | true => rfl
        | false =>
            have hplain : ∀ e ∈ entries, e.pretty = false := by
              intro e he
              have hstale := List.any_eq_false.mp hany e he
              rw [stale, Bool.or_eq_true, not_or] at hstale
              exact Bool.eq_false_iff.mpr hstale.1
            have hlength := (normalizeBookFrom_ok_iff.mp hbook).1.length_eq
            rw [List.filter_eq_self.mpr (by simpa using hplain)] at hlength
            simp [hlength]
      change Except.ok (rows, (entries.any stale || decide (rows.length ≠ entries.length)), n) =
        Except.ok (book, changed, ignored) ↔ _
      rw [hshort, Except.ok.injEq, Prod.mk.injEq, Prod.mk.injEq, Except.ok.injEq, Prod.mk.injEq]
      exact ⟨fun h => ⟨⟨h.1, h.2.2⟩, h.2.1⟩, fun h => ⟨h.1.1, h.2, h.1.2⟩⟩

/-! ## The header that is loaded -/

section Loaded

variable {L : WalletLib} {raw : Text}

/-- A header as it is read has this account and this address book. -/
structure HeaderLoads (L : WalletLib) (parsed : WalletReadHeader) (id : AccountId)
    (book : List AddressBookEntry) (ignored : Nat) : Prop where
  account : parsed.sources.accountId L = some id
  domain : domainOfAccountId id = parsed.domainU16
  normal : normalizeAddressBookEntries parsed.addressBook = .ok (book, ignored)

/-- The account or a row is not written as it comes out. -/
def WalletReadHeader.stale (parsed : WalletReadHeader) (id : AccountId) : Bool :=
  decide (parsed.accountIdHuman ≠ accountIdToHuman id) || parsed.addressBook.any AddressBookEntry.stale

theorem loadWalletReadHeader_ok_iff {auto : Bool} {load : WalletReadLoad} {file : Text} :
    loadWalletReadHeader L raw auto = .ok (load, file) ↔ ∃ parsed id book ignored,
      parseWalletReadHeader L raw = .ok parsed ∧ HeaderLoads L parsed id book ignored ∧
      ⟨parsed.normal id book ignored, parsed.stale id, ignored⟩ = load ∧
      upgradedFile L raw (auto && parsed.stale id) (parsed.normal id book ignored) =
        .ok file := by
  rw [loadWalletReadHeader]
  simp only [Attempt.except_bind_ok_iff]
  constructor
  · rintro ⟨parsed, hparsed, ⟨normalized, changed⟩, hnormal, file', hfile, hout⟩
    obtain ⟨id, book, bookChanged, ignored, hid, hdomain, hbook, rfl, hchanged⟩ :=
      normalizeWalletHeader_ok_iff.mp hnormal
    obtain ⟨hrows, hstale⟩ := normalizeHeaderBook_ok_iff.mp hbook
    obtain ⟨rfl, rfl⟩ := Prod.mk.inj (Except.ok.inj hout)
    subst hstale hchanged
    exact ⟨parsed, id, book, ignored, hparsed, ⟨hid, hdomain, hrows⟩, rfl, hfile⟩
  · rintro ⟨parsed, id, book, ignored, hparsed, hloads, rfl, hfile⟩
    have hbook := normalizeHeaderBook_ok_iff.mpr ⟨hloads.normal, rfl⟩
    have hnormal := normalizeWalletHeader_ok_iff.mpr
      ⟨id, book, _, ignored, hloads.account, hloads.domain, hbook, rfl, rfl⟩
    exact ⟨parsed, hparsed, _, hnormal, file, hfile, rfl⟩

end Loaded

end Pwm
