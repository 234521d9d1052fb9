import Pwm.Wallet.AddressBook

/-!
# Account ids are read back from their texts

Every reader returns the id from its pretty and from its bech32 text. A bech32
text is that of the version, the flags, the domain and the id read from it, so
that of the texts without flags and with the domain of the id no two name one
account. Flags and domain are not compared with the id when a text is read.
-/

namespace Pwm

open Digits

/-! ## Bech32 texts -/

theorem bech32dxHrp_eq : bech32dxHrp = ['p', 'w', 'm'] := by
  decide

theorem checkHrp_bech32dxHrp :
    Bech32.checkHrp bech32dxHrp ∧ ∀ c ∈ bech32dxHrp, c.isUpper = false := by
  rw [bech32dxHrp_eq]
  simp [Bech32.checkHrp]

theorem payload_length (version flags : U8) (domainRaw : U32) (id : AccountId) :
    ([version, flags] ++ domainRaw.beBytes 4 ++ id.beBytes 32).length = bech32dxPayloadLen := by
  rw [List.length_append, List.length_append, BitVec.length_beBytes, BitVec.length_beBytes]
  rfl

/-- What is encoded under the version in use is read back. -/
theorem decode_encodeBech32dx (flags : U8) (domainRaw : U32) (id : AccountId) :
    decodeBech32dx (encodeBech32dx bech32dxVersion flags domainRaw id) =
      .ok ⟨bech32dxVersion, flags, domainRaw, id⟩ := by
  have hdecode : Bech32.decode (encodeBech32dx bech32dxVersion flags domainRaw id) =
      some (bech32dxHrp, Bech32.toBase32 ([bech32dxVersion, flags] ++ domainRaw.beBytes 4 ++
        id.beBytes 32), .bech32m) :=
    Bech32.decode_encode _ _ checkHrp_bech32dxHrp.1 checkHrp_bech32dxHrp.2
  have hdomain : (([bech32dxVersion, flags] ++ domainRaw.beBytes 4 ++ id.beBytes 32).drop 2).take 4 =
      domainRaw.beBytes 4 := by
    rw [List.append_assoc]
    exact List.take_left' (BitVec.length_beBytes 4 domainRaw)
  have hid : ([bech32dxVersion, flags] ++ domainRaw.beBytes 4 ++ id.beBytes 32).drop 6 =
      id.beBytes 32 := by
    rw [List.drop_left']
    rw [List.length_append, BitVec.length_beBytes]
    rfl
  unfold decodeBech32dx
  rw [hdecode]
  simp only [ne_eq, not_true_eq_false, if_false, Bech32.fromBase32_toBase32, payload_length]
  rw [hdomain, hid, bytes32_beBytes, ofNat_ofBeBytes 4]
  rfl

/-- The parts of a payload, each read back into its bytes. -/
theorem payload_parts {payload : List U8} (hlength : payload.length = bech32dxPayloadLen) :
    [payload.getD 0 0#8, payload.getD 1 0#8] ++
        (BitVec.ofNat 32 (ofBeBytes ((payload.drop 2).take 4))).beBytes 4 ++
        (bytes32 (payload.drop 6)).beBytes 32 = payload := by
  match payload with
  | [] | [_] => cases hlength
  | version :: flags :: rest =>
      have hrest : rest.length = 36 := by
        simpa [bech32dxPayloadLen] using hlength
      have hdomain : (rest.take 4).length = 4 := by
        rw [List.length_take, hrest]
        rfl
      have hid : (rest.drop 4).length = 32 := by
        rw [List.length_drop, hrest]
      have hdomainBytes : (BitVec.ofNat 32 (ofBeBytes (rest.take 4))).beBytes 4 = rest.take 4 := by
        have h := @beBytes_ofBeBytes 32 (rest.take 4) (by rw [hdomain])
        rwa [hdomain] at h
      have hidBytes : (bytes32 (rest.drop 4)).beBytes 32 = rest.drop 4 := by
        have h := @beBytes_ofBeBytes 256 (rest.drop 4) (by rw [hid])
        rwa [hid] at h
      change [version, flags] ++ (BitVec.ofNat 32 (ofBeBytes (rest.take 4))).beBytes 4 ++
        (bytes32 (rest.drop 4)).beBytes 32 = _
      rw [hdomainBytes, hidBytes, List.append_assoc, List.take_append_drop]
      rfl

/-- A text that is read is the one of what was read from it, up to the case of its letters. -/
theorem encode_of_decodeBech32dx {s : Text} {d : Bech32DxDecoded} (h : decodeBech32dx s = .ok d) :
    Text.toAsciiLower s = encodeBech32dx d.version d.flags d.domainRaw d.accountId := by
  unfold decodeBech32dx at h
  cases hdecode : Bech32.decode s with
  | none =>
      rw [hdecode] at h
      cases h
  | some parts =>
      obtain ⟨hrp, data, variant⟩ := parts
      rw [hdecode] at h
      simp only at h
      split at h
      · cases h
      rename_i hhrp
      split at h
      · cases h
      rename_i hvariant
      cases hbytes : Bech32.fromBase32 data with
      | none =>
          rw [hbytes] at h
          cases h
      | some payload =>
          rw [hbytes] at h
          simp only at h
          split at h
          · cases h
          rename_i hlength
          split at h
          · cases h
          rw [not_not] at hhrp hvariant hlength
          obtain rfl := Except.ok.inj h
          rw [Bech32.encode_of_decode hdecode, hhrp, hvariant, encodeBech32dx, payload_parts hlength,
            Bech32.toBase32_fromBase32 hbytes]

theorem parseBech32dx_accountId (id : AccountId) :
    parseBech32dxAccountId (accountIdToBech32dx id) = .ok id := by
  rw [parseBech32dxAccountId, accountIdToBech32dx, decode_encodeBech32dx]
  rfl

/-- The characters of a bech32 text are plain. -/
theorem bech32dx_plain {version flags : U8} {domainRaw : U32} {id : AccountId} {c : Char}
    (h : c ∈ encodeBech32dx version flags domainRaw id) : Text.isWhite c = false ∧ c ≠ '-' := by
  rw [encodeBech32dx, Bech32.encode, bech32dxHrp_eq] at h
  rcases List.mem_append.mp h with hhrp | hrest
  · simp only [List.mem_cons, List.not_mem_nil, or_false] at hhrp
    rcases hhrp with rfl | rfl | rfl <;> decide
  · rcases List.mem_cons.mp hrest with rfl | hdata
    · decide
    · obtain ⟨g, -, rfl⟩ := List.mem_map.mp hdata
      exact ⟨(Bech32.toChar_plain g).2.2.2, (Bech32.toChar_plain g).2.2.1⟩

theorem trim_bech32dx (id : AccountId) :
    Text.trim (accountIdToBech32dx id) = accountIdToBech32dx id :=
  Text.trim_eq_self fun _ hc => (bech32dx_plain hc).1

theorem parseAccountId_bech32dx (id : AccountId) :
    parseAccountId (accountIdToBech32dx id) = .ok id := by
  unfold parseAccountId
  rw [trim_bech32dx]
  simp only [parseBech32dx_accountId]

theorem stripPretty_bech32dx (id : AccountId) :
    Text.stripPrefix "pwm1-".toList (accountIdToBech32dx id) = none :=
  @Text.stripPrefix_eq_none _ _ '-' (by decide) fun hdash => (bech32dx_plain hdash).2 rfl

theorem parseAcctIdChecked_bech32dx (runtimeUserInput : Bool) (id : AccountId) :
    parseAcctIdChecked runtimeUserInput (accountIdToBech32dx id) = .ok id := by
  unfold parseAcctIdChecked prettyDomainPart
  rw [trim_bech32dx, stripPretty_bech32dx, parseAccountId_bech32dx]
  rfl

/-! ## Upper-case digits -/

/-- A digit of either case stands for its value, and separates nothing. -/
theorem upperDigit : ∀ d < 16, Text.isHexDigit (Nat.digitChar d).toUpper = true ∧
    hexVal (Nat.digitChar d).toUpper.toLower = d ∧ (Nat.digitChar d).toUpper ≠ '-' ∧
    (Nat.digitChar d).toUpper ≠ '/' ∧ Text.isWhite (Nat.digitChar d).toUpper = false := by
  decide

theorem ofHex_concat (digits : Text) (c : Char) :
    Text.ofHex (digits ++ [c]) = 16 * Text.ofHex digits + hexVal c.toLower := by
  rw [Text.ofHex, List.foldl_append]
  rfl

theorem upperDigits_spec (n : Nat) :
    (∀ c ∈ (Nat.toDigits 16 n).map Char.toUpper, ∃ d < 16, c = (Nat.digitChar d).toUpper) ∧
      Text.ofHex ((Nat.toDigits 16 n).map Char.toUpper) = n := by
  induction n using Nat.strongRecOn with
  | ind n ih =>
      by_cases hn : n < 16
      · rw [Nat.toDigits_of_lt_base hn]
        refine ⟨fun c hc => ⟨n, hn, List.mem_singleton.mp hc⟩, ?_⟩
        have hvalue := (upperDigit n hn).2.1
        simpa [Text.ofHex] using hvalue
      · obtain ⟨hmem, hvalue⟩ := ih (n / 16) (by omega)
        have hdigit := (upperDigit (n % 16) (by omega)).2.1
        rw [Nat.toDigits_of_base_le (by omega) (by omega), List.map_append]
        constructor
        · intro c hc
          rcases List.mem_append.mp hc with hfront | hlast
          · exact hmem c hfront
          · exact ⟨n % 16, by omega, List.mem_singleton.mp hlast⟩
        · rw [List.map_singleton, ofHex_concat, hvalue, hdigit]
          omega

theorem mem_upperHex {w n : Nat} {c : Char} (h : c ∈ upperHex w n) :
    ∃ d < 16, c = (Nat.digitChar d).toUpper := by
  rcases List.mem_append.mp h with hzero | hdigit
  · exact ⟨0, by omega, (List.eq_of_mem_replicate hzero).trans (by decide)⟩
  · exact (upperDigits_spec n).1 c hdigit

theorem ofHex_zeros (k : Nat) (digits : Text) :
    Text.ofHex (List.replicate k '0' ++ digits) = Text.ofHex digits := by
  induction k with
  | zero => rfl
  | succ k ih =>
      rw [List.replicate_succ, List.cons_append, ← ih]
      rfl

theorem ofHex_upperHex (w n : Nat) : Text.ofHex (upperHex w n) = n := by
  rw [upperHex, ofHex_zeros, (upperDigits_spec n).2]

theorem length_upperHex {w n : Nat} (hw : 0 < w) (h : n < 16 ^ w) : (upperHex w n).length = w := by
  have hdigits : (Nat.toDigits 16 n).length ≤ w := (Nat.length_toDigits_le_iff (by omega) hw).mpr h
  rw [upperHex, List.length_append, List.length_replicate, List.length_map]
  omega

theorem isHexDigit_upperHex (w n : Nat) : (upperHex w n).all Text.isHexDigit = true := by
  rw [List.all_eq_true]
  intro c hc
  obtain ⟨d, hd, rfl⟩ := mem_upperHex hc
  exact (upperDigit d hd).1

/-! ## The domain index -/

/-- The letters of a label in either case, as one number. -/
def labelKey (entry : DomainEntry) : Nat :=
  (Text.toAsciiLower entry.label.toList).foldl (fun key c => key * 2 ^ 21 + c.toNat) 0

/-- The rows stand in the order of their labels, which hold nothing that a pretty text is cut at. -/
theorem allEntries_rows :
    (allEntries.map labelKey).IsChain (· < ·) ∧
      ∀ entry ∈ allEntries, Text.trim entry.label.toList = entry.label.toList ∧
        '/' ∉ entry.label.toList ∧ '-' ∉ entry.label.toList ∧ entry.raw ≤ 0xffff ∧
        (Text.toAsciiLower entry.label.toList).head? ≠ some '$' := by
  set_option maxRecDepth 8192 in
  decide

/-- Of two rows with one label the first is the second. -/
theorem find?_sorted {α β : Type} [DecidableEq β] {f : α → β} {key : α → Nat} {l : List α}
    (hkey : ∀ a b, f a = f b → key a = key b) (hsorted : (l.map key).Pairwise (· < ·)) {a : α}
    (ha : a ∈ l) : l.find? (fun b => decide (f b = f a)) = some a := by
  induction l with
  | nil => cases ha
  | cons b l ih =>
      rw [List.map_cons, List.pairwise_cons] at hsorted
      rcases List.mem_cons.mp ha with rfl | htail
      · exact List.find?_cons_of_pos (by simp)
      · have hlt : key b < key a := hsorted.1 _ (List.mem_map_of_mem htail)
        have hne : f b ≠ f a := fun heq => absurd (hkey b a heq) (by omega)
        rw [List.find?_cons_of_neg (by simpa using hne)]
        exact ih hsorted.2 htail

/-- The label of every row is found as that row, and holds nothing that a pretty text is cut at. -/
theorem allEntries_labels {entry : DomainEntry} (hentry : entry ∈ allEntries) :
    lookupByLabel entry.label.toList = some entry ∧ '/' ∉ entry.label.toList ∧
      '-' ∉ entry.label.toList ∧ entry.raw ≤ 0xffff := by
  obtain ⟨hchain, hrows⟩ := allEntries_rows
  obtain ⟨htrim, hslash, hdash, hraw, -⟩ := hrows entry hentry
  refine ⟨?_, hslash, hdash, hraw⟩
  have hkey (a b : DomainEntry) (h : Text.toAsciiLower a.label.toList =
      Text.toAsciiLower b.label.toList) : labelKey a = labelKey b := by
    rw [labelKey, labelKey, h]
  have hfind := find?_sorted hkey (List.isChain_iff_pairwise.mp hchain) hentry
  rw [lookupByLabel, htrim, hfind]
  rfl

theorem labels_no_dollar :
    (∀ entry ∈ allEntries, (Text.toAsciiLower entry.label.toList).head? ≠ some '$') ∧
      ∀ p ∈ legacyLabels, p.1.toList.head? ≠ some '$' :=
  ⟨fun entry hentry => (allEntries_rows.2 entry hentry).2.2.2.2, by decide⟩

theorem lookupByRaw_spec {raw : Nat} {entry : DomainEntry} (h : lookupByRaw raw = some entry) :
    entry ∈ allEntries ∧ entry.raw = raw :=
  ⟨List.mem_of_find?_eq_some h, by simpa using List.find?_some h⟩

/-- The row that names a domain has its first byte, and outside the regulatory range its code. -/
theorem lookupForDisplay_spec {raw : Nat} {entry : DomainEntry}
    (h : lookupForDisplay raw = some entry) :
    entry ∈ allEntries ∧ entry.raw / 256 % 256 = raw / 256 % 256 ∧
      (categoryForRaw raw ≠ some .regulatory → entry.raw = raw) := by
  unfold lookupForDisplay at h
  rcases Option.or_eq_some_iff.mp h with hraw | ⟨-, hhi⟩
  · obtain ⟨hmem, hsame⟩ := lookupByRaw_spec hraw
    exact ⟨hmem, by rw [hsame], fun _ => hsame⟩
  · split at hhi
    · rename_i hregulatory
      have hmem : entry ∈ regulatory := List.mem_of_find?_eq_some hhi
      have hbyte : entry.raw / 256 % 256 = raw / 256 % 256 := by
        simpa using List.find?_some hhi
      exact ⟨List.mem_append_left _ (List.mem_append_left _ hmem), hbyte,
        fun hnot => absurd hregulatory hnot⟩
    · cases hhi

/-- A code is no label. -/
theorem lookupByLabel_code {t : Text} (hplain : ∀ c ∈ t, Text.isWhite c = false)
    (hhead : t.head? = some '$') : lookupByLabel t = none := by
  have hlower : (Text.toAsciiLower t).head? = some '$' := by
    rw [Text.toAsciiLower, List.head?_map, hhead]
    rfl
  have htrim : Text.trim t = t := Text.trim_eq_self hplain
  have hrow : (allEntries.find? fun entry =>
      decide (Text.toAsciiLower entry.label.toList = Text.toAsciiLower t)) = none := by
    rw [List.find?_eq_none]
    intro entry hentry hsame
    apply labels_no_dollar.1 entry hentry
    rw [of_decide_eq_true hsame, hlower]
  have hlegacy : lookupLegacyLabelRaw t = none := by
    rw [lookupLegacyLabelRaw, htrim, Option.map_eq_none_iff, List.find?_eq_none]
    intro p hp hsame
    apply labels_no_dollar.2 p hp
    rw [of_decide_eq_true hsame, hlower]
  rw [lookupByLabel, htrim, hrow, hlegacy]
  rfl

/-! ## The domain of a pretty text -/

/-- How a pretty text names a domain. -/
def domainHint (domainRaw : Nat) : Text :=
  let display := formatDomainForDisplay domainRaw
  let withLo :=
    if display.2 = true ∧ categoryForRaw domainRaw = some .regulatory then
      display.1 ++ ['/'] ++ upperHex 2 (domainRaw % 256)
    else display.1
  if display.2 then withLo else withLo ++ ['!']

theorem renderAcctIdUi_eq (id : AccountId) :
    renderAcctIdUi id = "pwm1-".toList ++ domainHint (domRawFromAcct id).toNat ++ "-f".toList ++
      upperHex 8 (addressFlags id).toNat ++ "-t".toList ++
      hexDigits ((id.beBytes 32).drop 6) :=
  rfl

/-- A domain is read back from its name, which does not say less than the domain. -/
structure HintReads (hint : Text) (raw : Nat) : Prop where
  domain : parsePrettyDomain hint = .ok raw
  noDash : '-' ∉ hint
  clear : ∀ runtimeUserInput, rejectAmbigDom hint runtimeUserInput = .ok ()

theorem slash_not_mem_upperHex (w n : Nat) : '/' ∉ upperHex w n := by
  intro h
  obtain ⟨d, hd, heq⟩ := mem_upperHex h
  exact (upperDigit d hd).2.2.2.1 heq.symm

theorem dash_not_mem_upperHex (w n : Nat) : '-' ∉ upperHex w n := by
  intro h
  obtain ⟨d, hd, heq⟩ := mem_upperHex h
  exact (upperDigit d hd).2.2.1 heq.symm

/-- A regulatory domain is named by a label and its second byte. -/
theorem hint_regulatory {raw : Nat} {entry : DomainEntry} (hraw : raw < 65536)
    (hentry : lookupForDisplay raw = some entry) :
    HintReads (entry.label.toList ++ ['/'] ++ upperHex 2 (raw % 256)) raw := by
  obtain ⟨hmem, hbyte, -⟩ := lookupForDisplay_spec hentry
  obtain ⟨hlookup, hslash, hdash, -⟩ := allEntries_labels hmem
  have hsplit : Text.splitOnce ['/'] (entry.label.toList ++ ['/'] ++ upperHex 2 (raw % 256)) =
      some (entry.label.toList, upperHex 2 (raw % 256)) := Text.splitOnce_append hslash
  have hlength : (upperHex 2 (raw % 256)).length = 2 := length_upperHex (by omega) (by omega)
  refine ⟨?_, ?_, fun _ => if_pos ?_⟩
  · unfold parsePrettyDomain
    simp only [hsplit, hlength, isHexDigit_upperHex, hlookup, ofHex_upperHex, hbyte, ne_eq,
      not_true_eq_false, or_self, if_false]
    congr 1
    omega
  · rw [List.mem_append, List.mem_append]
    rintro ((h | h) | h)
    · exact hdash h
    · exact absurd h (by decide)
    · exact dash_not_mem_upperHex _ _ h
  · rw [List.mem_append]
    exact .inl (List.mem_append_right _ (List.mem_singleton_self _))

/-- Any other domain with a label is named by the label. -/
theorem hint_label {raw : Nat} {entry : DomainEntry} (hentry : lookupForDisplay raw = some entry)
    (hcategory : categoryForRaw raw ≠ some .regulatory) : HintReads entry.label.toList raw := by
  obtain ⟨hmem, -, hsame⟩ := lookupForDisplay_spec hentry
  obtain ⟨hlookup, hslash, hdash, -⟩ := allEntries_labels hmem
  refine ⟨?_, hdash, fun _ => ?_⟩
  · unfold parsePrettyDomain
    simp only [Text.splitOnce_char_none.mpr hslash, hlookup, hsame hcategory]
  · unfold rejectAmbigDom
    rw [if_neg hslash, hlookup]
    simp only [hsame hcategory, if_neg hcategory]

/-- A domain without a label is named by its code. -/
theorem hint_code {raw : Nat} (hraw : raw < 65536) :
    HintReads (formatDomainPascalHex raw ++ ['!']) raw := by
  have hcode : formatDomainPascalHex raw = '$' :: upperHex 4 raw := by
    rw [formatDomainPascalHex, if_pos (by omega)]
    rfl
  have hlength : (upperHex 4 raw).length = 4 := length_upperHex (by omega) (by omega)
  rw [hcode]
  have hmem : ∀ c ∈ '$' :: upperHex 4 raw ++ ['!'],
      c = '$' ∨ c = '!' ∨ ∃ d < 16, c = (Nat.digitChar d).toUpper := by
    intro c hc
    rcases List.mem_append.mp hc with hfront | hbang
    · rcases List.mem_cons.mp hfront with rfl | hdigit
      · exact .inl rfl
      · exact .inr (.inr (mem_upperHex hdigit))
    · exact .inr (.inl (List.mem_singleton.mp hbang))
  have hslash : '/' ∉ '$' :: upperHex 4 raw ++ ['!'] := by
    intro h
    rcases hmem _ h with h | h | ⟨d, hd, h⟩
    · exact absurd h (by decide)
    · exact absurd h (by decide)
    · exact (upperDigit d hd).2.2.2.1 h.symm
  have hwhite : ∀ c ∈ '$' :: upperHex 4 raw ++ ['!'], Text.isWhite c = false := by
    intro c hc
    rcases hmem c hc with rfl | rfl | ⟨d, hd, rfl⟩
    · decide
    · decide
    · exact (upperDigit d hd).2.2.2.2
  have hnone : lookupByLabel ('$' :: upperHex 4 raw ++ ['!']) = none :=
    lookupByLabel_code hwhite rfl
  refine ⟨?_, fun h => ?_, fun _ => ?_⟩
  · unfold parsePrettyDomain
    have hstrip : Text.stripPrefix ['$'] ('$' :: upperHex 4 raw) = some (upperHex 4 raw) :=
      Text.stripPrefix_append ['$'] _
    simp only [Text.splitOnce_char_none.mpr hslash, hnone, List.getLast?_concat, List.dropLast_concat,
      if_true, hstrip, hlength, isHexDigit_upperHex, ofHex_upperHex, true_or, not_true_eq_false,
      or_self, if_false]
  · rcases hmem _ h with h | h | ⟨d, hd, h⟩
    · exact absurd h (by decide)
    · exact absurd h (by decide)
    · exact (upperDigit d hd).2.2.1 h.symm
  · unfold rejectAmbigDom
    rw [if_neg hslash, hnone]

theorem domainHint_reads {raw : Nat} (hraw : raw < 65536) : HintReads (domainHint raw) raw := by
  unfold domainHint formatDomainForDisplay
  cases hentry : lookupForDisplay raw with
  | none => exact hint_code hraw
  | some entry =>
      by_cases hcategory : categoryForRaw raw = some .regulatory
      · simp only [hcategory, and_self, if_true]
        exact hint_regulatory hraw hentry
      · simp only [hcategory, and_false, if_false, if_true]
        exact hint_label hentry hcategory

/-! ## Pretty texts -/

theorem extract_byte {id : AccountId} {start width i : Nat} (h : i + 8 ≤ width) :
    (id.extractLsb' start width).extractLsb' i 8 = id.extractLsb' (start + i) 8 := by
  apply BitVec.eq_of_getLsbD_eq
  intro j hj
  simp only [BitVec.getLsbD_extractLsb']
  rw [decide_eq_true (show i + j < width by omega), Bool.true_and, Nat.add_assoc]

/-- The domain, the flags and the rest of an id are its bytes. -/
theorem id_parts (id : AccountId) :
    (domainOfAccountId id).beBytes 2 ++ (addressFlags id).beBytes 4 ++ (id.beBytes 32).drop 6 =
      id.beBytes 32 := by
  have hdomain : (domainOfAccountId id).beBytes 2 = [id.extractLsb' 248 8, id.extractLsb' 240 8] := by
    change [(id.extractLsb' 240 16).extractLsb' 8 8, (id.extractLsb' 240 16).extractLsb' 0 8] = _
    rw [extract_byte (by omega), extract_byte (by omega)]
  have hflags : (addressFlags id).beBytes 4 = [id.extractLsb' 232 8, id.extractLsb' 224 8,
      id.extractLsb' 216 8, id.extractLsb' 208 8] := by
    change [(id.extractLsb' 208 32).extractLsb' 24 8, (id.extractLsb' 208 32).extractLsb' 16 8,
      (id.extractLsb' 208 32).extractLsb' 8 8, (id.extractLsb' 208 32).extractLsb' 0 8] = _
    rw [extract_byte (by omega), extract_byte (by omega), extract_byte (by omega),
      extract_byte (by omega)]
  have hfront : (id.beBytes 32).take 6 = [id.extractLsb' 248 8, id.extractLsb' 240 8] ++
      [id.extractLsb' 232 8, id.extractLsb' 224 8, id.extractLsb' 216 8, id.extractLsb' 208 8] :=
    rfl
  rw [hdomain, hflags, ← hfront, List.take_append_drop]

theorem domRaw_lt (id : AccountId) : (domRawFromAcct id).toNat < 65536 := by
  have h := (domainOfAccountId id).isLt
  rw [domRawFromAcct, BitVec.toNat_setWidth]
  omega

theorem domRaw_ofNat (id : AccountId) :
    BitVec.ofNat 16 (domRawFromAcct id).toNat = domainOfAccountId id := by
  apply BitVec.eq_of_toNat_eq
  have h := (domainOfAccountId id).isLt
  rw [BitVec.toNat_ofNat, domRawFromAcct, BitVec.toNat_setWidth]
  omega

theorem parsePretty_render (id : AccountId) :
    parsePrettyAccountId (renderAcctIdUi id) = .ok id := by
  obtain ⟨hdomain, hdash, -⟩ := domainHint_reads (domRaw_lt id)
  have hstrip : Text.stripPrefix "pwm1-".toList (renderAcctIdUi id) =
      some (domainHint (domRawFromAcct id).toNat ++ ['-', 'f'] ++
        (upperHex 8 (addressFlags id).toNat ++ ['-', 't'] ++ hexDigits ((id.beBytes 32).drop 6))) := by
    rw [renderAcctIdUi_eq]
    simp only [List.append_assoc]
    exact Text.stripPrefix_append _ _
  have hflags : (upperHex 8 (addressFlags id).toNat).length = 8 :=
    length_upperHex (by omega) (addressFlags id).isLt
  have htail : (hexDigits ((id.beBytes 32).drop 6)).length = 52 := by
    rw [length_hexDigits, List.length_drop, BitVec.length_beBytes]
  have hhex : (hexDigits ((id.beBytes 32).drop 6)).all Text.isHexDigit = true :=
    List.all_eq_true.mpr fun c hc => Text.isHexDigit_of_lower (isLowerHex_of_mem_hexDigits hc)
  unfold parsePrettyAccountId
  simp only [hstrip]
  rw [show "-f".toList = ['-', 'f'] by decide, show "-t".toList = ['-', 't'] by decide,
    Text.splitOnce_append hdash]
  simp only
  rw [Text.splitOnce_append (dash_not_mem_upperHex _ _)]
  have hlow : ¬ 0xffff < (domRawFromAcct id).toNat := by
    have h := domRaw_lt id
    omega
  simp only [hflags, htail, hhex, isHexDigit_upperHex, hdomain, ne_eq, not_true_eq_false, or_self,
    if_false, hlow, Text.hexDecode_hexDigits, ofHex_upperHex]
  rw [domRaw_ofNat, BitVec.ofNat_toNat, BitVec.setWidth_eq, id_parts, bytes32_beBytes]

theorem decodeBech32dx_hrp {s : Text} {d : Bech32DxDecoded} (h : decodeBech32dx s = .ok d) :
    ∃ data variant, Bech32.decode s = some (bech32dxHrp, data, variant) := by
  unfold decodeBech32dx at h
  cases hdecode : Bech32.decode s with
  | none =>
      rw [hdecode] at h
      cases h
  | some parts =>
      obtain ⟨hrp, data, variant⟩ := parts
      rw [hdecode] at h
      simp only at h
      split at h
      · cases h
      · rename_i hhrp
        rw [not_not.mp hhrp]
        exact ⟨data, variant, rfl⟩

/-- A pretty text is no bech32 text: the dash is no digit of one. -/
theorem parseBech32dx_pretty (rest : Text) :
    ∃ e, parseBech32dxAccountId ("pwm1-".toList ++ rest) = .error e := by
  cases hparse : decodeBech32dx ("pwm1-".toList ++ rest) with
  | error e => exact ⟨e, by rw [parseBech32dxAccountId, hparse]; rfl⟩
  | ok d =>
      exfalso
      obtain ⟨data, variant, hdecode⟩ := decodeBech32dx_hrp hparse
      obtain ⟨rawHrp, rawData, groups, htext, hhrp, hgroups, -⟩ := Bech32.decode_parts hdecode
      have hlength : rawHrp.length = 3 := by
        have h := congrArg List.length hhrp
        rw [bech32dxHrp_eq, Text.toAsciiLower, List.length_map] at h
        exact h.symm
      have htail : ("pwm1-".toList ++ rest).drop 3 = '1' :: rawData := by
        rw [htext, ← hlength, List.drop_left]
      have hdata : rawData = '-' :: rest := by
        have hcons : '1' :: '-' :: rest = '1' :: rawData := htail
        exact (List.cons.inj hcons).2.symm
      rw [hdata, List.mapM_cons, show Bech32.ofChar '-' = none by decide] at hgroups
      cases hgroups

theorem trim_render (id : AccountId) : Text.trim (renderAcctIdUi id) = renderAcctIdUi id := by
  rw [renderAcctIdUi_eq]
  have hne : hexDigits ((id.beBytes 32).drop 6) ≠ [] := by
    rw [← List.length_pos_iff, length_hexDigits, List.length_drop, BitVec.length_beBytes]
    omega
  apply Text.trim_eq_self_of_ends
  · intro c hc
    obtain rfl := Option.some.inj (show some 'p' = some c from hc)
    decide
  · intro c hc
    rw [List.getLast?_append_of_ne_nil _ hne] at hc
    exact Text.not_white_of_lowerHex (isLowerHex_of_mem_hexDigits (List.mem_of_getLast? hc))

theorem parseAccountId_human (id : AccountId) : parseAccountId (accountIdToHuman id) = .ok id := by
  obtain ⟨e, hbech⟩ := parseBech32dx_pretty (domainHint (domRawFromAcct id).toNat ++ "-f".toList ++
    upperHex 8 (addressFlags id).toNat ++ "-t".toList ++ hexDigits ((id.beBytes 32).drop 6))
  have htext : "pwm1-".toList ++ (domainHint (domRawFromAcct id).toNat ++ "-f".toList ++
      upperHex 8 (addressFlags id).toNat ++ "-t".toList ++ hexDigits ((id.beBytes 32).drop 6)) =
      renderAcctIdUi id := by
    rw [renderAcctIdUi_eq]
    simp only [List.append_assoc]
  rw [htext] at hbech
  unfold parseAccountId accountIdToHuman
  rw [trim_render]
  simp only [hbech, parsePretty_render]

theorem parseAcctIdChecked_human (runtimeUserInput : Bool) (id : AccountId) :
    parseAcctIdChecked runtimeUserInput (accountIdToHuman id) = .ok id := by
  have hreads := domainHint_reads (domRaw_lt id)
  have hpart : prettyDomainPart (renderAcctIdUi id) =
      some (domainHint (domRawFromAcct id).toNat) := by
    have hstrip : Text.stripPrefix "pwm1-".toList (renderAcctIdUi id) =
        some (domainHint (domRawFromAcct id).toNat ++ ['-', 'f'] ++
          (upperHex 8 (addressFlags id).toNat ++ "-t".toList ++
            hexDigits ((id.beBytes 32).drop 6))) := by
      rw [renderAcctIdUi_eq]
      simp only [List.append_assoc]
      exact Text.stripPrefix_append _ _
    rw [prettyDomainPart, hstrip, Option.bind_some, show "-f".toList = ['-', 'f'] by decide,
      Text.splitOnce_append hreads.noDash]
    rfl
  have hread := parseAccountId_human id
  unfold parseAcctIdChecked accountIdToHuman
  rw [trim_render, hpart]
  simp only [hreads.clear]
  rw [accountIdToHuman] at hread
  rw [hread]
  rfl

/-! ## Hexadecimal texts -/

theorem not_mem_hexDigits {bytes : List U8} {c : Char} (hc : isLowerHex c = false) :
    c ∉ hexDigits bytes := by
  intro h
  rw [isLowerHex_of_mem_hexDigits h] at hc
  cases hc

/-- Digits are no bech32 text: the front of one has letters that are no digits. -/
theorem parseBech32dx_hexDigits (bytes : List U8) :
    ∃ e, parseBech32dxAccountId (hexDigits bytes) = .error e := by
  cases hparse : decodeBech32dx (hexDigits bytes) with
  | error e => exact ⟨e, by rw [parseBech32dxAccountId, hparse]; rfl⟩
  | ok d =>
      exfalso
      obtain ⟨data, variant, hdecode⟩ := decodeBech32dx_hrp hparse
      obtain ⟨rawHrp, rawData, groups, htext, hhrp, -⟩ := Bech32.decode_parts hdecode
      have hmem : 'p' ∈ Text.toAsciiLower (hexDigits bytes) := by
        have hfront : 'p' ∈ Text.toAsciiLower rawHrp := by
          rw [← hhrp, bech32dxHrp_eq]
          exact List.mem_cons_self
        rw [htext, Text.toAsciiLower, List.map_append]
        exact List.mem_append_left _ hfront
      rw [Text.toAsciiLower_hexDigits] at hmem
      exact not_mem_hexDigits (by decide) hmem

/-- The digits of an id are read as that id. -/
theorem parseAccountId_hexDigits (id : AccountId) :
    parseAccountId (hexDigits (id.beBytes 32)) = .ok id := by
  obtain ⟨e, hbech⟩ := parseBech32dx_hexDigits (id.beBytes 32)
  have hp : 'p' ∉ hexDigits (id.beBytes 32) := not_mem_hexDigits (by decide)
  have hP : 'P' ∉ hexDigits (id.beBytes 32) := not_mem_hexDigits (by decide)
  have hsplit : Text.splitOnce ['$'] (hexDigits (id.beBytes 32)) = none :=
    Text.splitOnce_eq_none List.mem_cons_self (not_mem_hexDigits (by decide))
  have hstrip : Text.stripPrefix legacyHumanAccountPrefix (hexDigits (id.beBytes 32)) = none :=
    Text.stripPrefix_eq_none (by decide) hP
  have hpretty : parsePrettyAccountId (hexDigits (id.beBytes 32)) =
      .error (.own "missing pretty prefix") := by
    rw [parsePrettyAccountId, Text.stripPrefix_eq_none (by decide) hp]
  have hfront : ¬ "pwm1-".toList.isPrefixOf (hexDigits (id.beBytes 32)) = true := fun h =>
    hp ((List.isPrefixOf_iff_prefix.mp h).subset (by decide))
  have hlength : (id.beBytes 32).length = 32 := BitVec.length_beBytes ..
  unfold parseAccountId
  rw [Text.trim_hexDigits]
  simp only [hbech, hpretty, hsplit, hstrip, Option.map_none, Option.getD_none,
    Text.hexDecode_hexDigits, hlength, ne_eq, not_true_eq_false, if_false, bytes32_beBytes]
  rw [if_neg hfront]

/-! ## The codec -/

/-- The text without flags and with the domain of the id. -/
def Bech32DxDecoded.Canonical (d : Bech32DxDecoded) : Prop :=
  d.flags = 0#8 ∧ d.domainRaw = domRawFromAcct d.accountId

theorem version_of_decode {s : Text} {d : Bech32DxDecoded} (h : decodeBech32dx s = .ok d) :
    d.version = bech32dxVersion := by
  unfold decodeBech32dx at h
  split at h
  · cases h
  · split at h
    · cases h
    split at h
    · cases h
    split at h
    · cases h
    split at h
    · cases h
    split at h
    · cases h
    rename_i hversion
    obtain rfl := Except.ok.inj h
    exact not_not.mp hversion

/-- A text is the one of its account id exactly when it is canonical. -/
theorem encode_of_decode_iff {s : Text} {d : Bech32DxDecoded} (h : decodeBech32dx s = .ok d) :
    Text.toAsciiLower s = accountIdToBech32dx d.accountId ↔ d.Canonical := by
  rw [encode_of_decodeBech32dx h, version_of_decode h]
  constructor
  · intro hsame
    have hdecode := decode_encodeBech32dx d.flags d.domainRaw d.accountId
    rw [hsame, accountIdToBech32dx, decode_encodeBech32dx] at hdecode
    have hfields := Except.ok.inj hdecode
    exact ⟨(congrArg Bech32DxDecoded.flags hfields).symm,
      (congrArg Bech32DxDecoded.domainRaw hfields).symm⟩
  · rintro ⟨hflags, hdomain⟩
    rw [accountIdToBech32dx, ← hflags, ← hdomain]

/-- Every reader returns an id from its texts; a text that is read is the one of what was read,
that of the account id exactly when it is canonical; and one canonical text names an account. -/
theorem accountText_codec :
    (∀ id, ∀ parse ∈ [parseAccountId, parseAcctIdUi, parseAcctIdMig],
      parse (accountIdToHuman id) = .ok id ∧ parse (accountIdToBech32dx id) = .ok id) ∧
    (∀ s d, decodeBech32dx s = .ok d →
      Text.toAsciiLower s = encodeBech32dx d.version d.flags d.domainRaw d.accountId ∧
      (Text.toAsciiLower s = accountIdToBech32dx d.accountId ↔ d.Canonical)) ∧
    ∀ s s' d d', decodeBech32dx s = .ok d → decodeBech32dx s' = .ok d' → d.Canonical →
      d'.Canonical → d.accountId = d'.accountId → Text.toAsciiLower s = Text.toAsciiLower s' := by
  refine ⟨fun id parse hparse => ?_,
    fun s d h => ⟨encode_of_decodeBech32dx h, encode_of_decode_iff h⟩, ?_⟩
  · simp only [List.mem_cons, List.not_mem_nil, or_false] at hparse
    rcases hparse with rfl | rfl | rfl
    · exact ⟨parseAccountId_human id, parseAccountId_bech32dx id⟩
    · exact ⟨parseAcctIdChecked_human true id, parseAcctIdChecked_bech32dx true id⟩
    · exact ⟨parseAcctIdChecked_human false id, parseAcctIdChecked_bech32dx false id⟩
  · intro s s' d d' h h' hcanonical hcanonical' hsame
    rw [(encode_of_decode_iff h).mpr hcanonical, (encode_of_decode_iff h').mpr hcanonical', hsame]

/-! ## A text with flags -/

namespace FlaggedText

/-- An account of domain `0x007E`. -/
def id : AccountId :=
  0x007e000000000000000000000000000000000000000000000000000000000000#256

theorem flagged_decodes : decodeBech32dx (encodeBech32dx bech32dxVersion 5#8 0x7e#32 id) =
    .ok ⟨bech32dxVersion, 5#8, 0x7e#32, id⟩ :=
  decode_encodeBech32dx 5#8 0x7e#32 id

theorem accountText_codec_id :
    parseAcctIdUi (accountIdToHuman id) = .ok id ∧
      Text.toAsciiLower (encodeBech32dx bech32dxVersion 5#8 0x7e#32 id) =
        encodeBech32dx bech32dxVersion 5#8 0x7e#32 id :=
  ⟨(accountText_codec.1 id parseAcctIdUi (by simp)).1,
    (accountText_codec.2.1 _ _ flagged_decodes).1⟩

/-- The text with flags is read, and the account id has another one. -/
theorem flagged_text_reads :
    ¬ ∀ s d, decodeBech32dx s = .ok d →
      Text.toAsciiLower s = accountIdToBech32dx d.accountId := by
  intro hclaim
  have hcanonical := (encode_of_decode_iff flagged_decodes).mp (hclaim _ _ flagged_decodes)
  exact absurd hcanonical.1 (by decide)

end FlaggedText

end Pwm
