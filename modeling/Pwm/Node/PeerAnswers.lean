import Pwm.Node.PeerWindows

/-!
# What a peer with all blocks answers

The memory of a node holds the last blocks of its chain, the epoch files hold
the blocks up to a height of their own. As long as every epoch that has ended
is in the files, a peer with the blocks finds what it is asked for: a start of
the headers, the blocks of announced rows, and every window that ends with its
epoch or with the tip.
-/

namespace Pwm

open BitVec Attempt Chunks

/-! ## Blocks by height -/

section Heights

variable {bs : List Block} {b : Block} {i : Nat}

theorem HeightsFrom.mem_height (h : HeightsFrom i bs) (hb : b ∈ bs) : i < b.hdr.height.toNat := by
  obtain ⟨k, hk⟩ := List.mem_iff_getElem?.mp hb
  rw [h k b hk]
  omega

theorem HeightsFrom.mem_le (h : HeightsFrom i bs) (hb : b ∈ bs) :
    b.hdr.height.toNat ≤ i + bs.length := by
  obtain ⟨k, hk⟩ := List.mem_iff_getElem?.mp hb
  have hlt := (List.getElem?_eq_some_iff.mp hk).1
  rw [h k b hk]
  omega

/-- The blocks from a height on. -/
theorem HeightsFrom.filter_ge (h : HeightsFrom i bs) (fromH : U64) :
    bs.filter (fun b => decide (fromH ≤ b.hdr.height)) = bs.drop (fromH.toNat - 1 - i) := by
  induction bs generalizing i with
  | nil => rw [List.drop_nil, List.filter_nil]
  | cons b rest ih =>
      have hhead := h.head
      by_cases hge : fromH ≤ b.hdr.height
      · have hzero : fromH.toNat - 1 - i = 0 := by
          rw [le_def] at hge
          omega
        have hzero' : fromH.toNat - 1 - (i + 1) = 0 := by
          omega
        rw [List.filter_cons, decide_eq_true hge, if_pos rfl, ih h.tail, hzero, hzero']
        rfl
      · have hsucc : fromH.toNat - 1 - i = fromH.toNat - 1 - (i + 1) + 1 := by
          rw [le_def] at hge
          omega
        rw [List.filter_cons, decide_eq_false hge, if_neg Bool.false_ne_true, ih h.tail, hsucc,
          List.drop_succ_cons]

/-- The blocks up to a height. -/
theorem HeightsFrom.filter_le (h : HeightsFrom i bs) (toH : U64) :
    bs.filter (fun b => decide (b.hdr.height ≤ toH)) = bs.take (toH.toNat - i) := by
  induction bs generalizing i with
  | nil => rw [List.take_nil, List.filter_nil]
  | cons b rest ih =>
      have hhead := h.head
      by_cases hle : b.hdr.height ≤ toH
      · have hsucc : toH.toNat - i = toH.toNat - (i + 1) + 1 := by
          rw [le_def] at hle
          omega
        rw [List.filter_cons, decide_eq_true hle, if_pos rfl, ih h.tail, hsucc, List.take_succ_cons]
      · have hzero : toH.toNat - i = 0 := by
          rw [le_def] at hle
          omega
        have hzero' : toH.toNat - (i + 1) = 0 := by
          omega
        rw [List.filter_cons, decide_eq_false hle, if_neg Bool.false_ne_true, ih h.tail, hzero,
          hzero', List.take_zero, List.take_zero]

/-- The blocks of a range of heights. -/
theorem HeightsFrom.filter_range (h : HeightsFrom i bs) (fromH toH : U64) (hpos : i < fromH.toNat) :
    bs.filter (fun b => decide (fromH ≤ b.hdr.height ∧ b.hdr.height ≤ toH)) =
      (bs.drop (fromH.toNat - 1 - i)).take (toH.toNat + 1 - fromH.toNat) := by
  have hsplit : bs.filter (fun b => decide (fromH ≤ b.hdr.height ∧ b.hdr.height ≤ toH)) =
      (bs.filter fun b => decide (fromH ≤ b.hdr.height)).filter
        fun b => decide (b.hdr.height ≤ toH) := by
    rw [List.filter_filter]
    apply List.filter_congr
    intro b _
    rw [Bool.decide_and, Bool.and_comm]
  rw [hsplit, h.filter_ge, (h.drop _).filter_le]
  congr 1
  omega

theorem HeightsFrom.head? (h : HeightsFrom i bs) (hne : bs ≠ []) :
    ∃ b, bs.head? = some b ∧ b.hdr.height.toNat = i + 1 := by
  cases bs with
  | nil => exact absurd rfl hne
  | cons b rest => exact ⟨b, rfl, h.head⟩

theorem HeightsFrom.getLast? (h : HeightsFrom i bs) (hne : bs ≠ []) :
    ∃ b, bs.getLast? = some b ∧ b.hdr.height.toNat = i + bs.length := by
  have hpos := List.length_pos_of_ne_nil hne
  have hlast : bs[bs.length - 1]? = some bs[bs.length - 1] := List.getElem?_eq_getElem (by omega)
  refine ⟨bs[bs.length - 1], ?_, ?_⟩
  · rw [List.getLast?_eq_getElem?, hlast]
  · rw [h _ _ hlast]
    omega

theorem HeightsFrom.startsAt (h : HeightsFrom i bs) (hne : bs ≠ []) (fromH : U64) :
    startsAt fromH bs ↔ fromH.toNat = i + 1 := by
  obtain ⟨b, hhead, hheight⟩ := h.head? hne
  rw [Pwm.startsAt, hhead, Option.map_some, Option.some.injEq, ← BitVec.toNat_inj, hheight]
  exact eq_comm

theorem HeightsFrom.spans (h : HeightsFrom i bs) (hne : bs ≠ []) {fromH toH : U64}
    (hfrom : fromH.toNat = i + 1) (hto : toH.toNat = i + bs.length) : spans fromH toH bs := by
  obtain ⟨b, hlast, hheight⟩ := h.getLast? hne
  refine ⟨(h.startsAt hne fromH).mpr hfrom, ?_⟩
  rw [hlast, Option.map_some, Option.some.injEq, ← BitVec.toNat_inj, hheight, hto]

/-- Consecutive heights below the last one of all go on one by one. -/
theorem takeFollowing_eq (h : HeightsFrom i bs) (hfits : i + bs.length < 2 ^ 64) (n : Nat)
    {prevH : Option U64} (hprev : ∀ height ∈ prevH, height.toNat = i) :
    takeFollowing n prevH bs = bs.take n := by
  induction bs generalizing i n prevH with
  | nil => cases n <;> rfl
  | cons b rest ih =>
      cases n with
      | zero => rfl
      | succ n =>
          rw [List.length_cons] at hfits
          have hfollows : ∀ height ∈ prevH, b.hdr.height = height.saturatingAdd 1#64 := by
            intro height hmem
            have hone : (1#64 : U64).toNat = 1 := rfl
            apply BitVec.eq_of_toNat_eq
            rw [h.head, toNat_saturatingAdd_of_fits (by rw [hprev height hmem, hone]; omega),
              hprev height hmem, hone]
          rw [takeFollowing, if_pos hfollows, List.take_succ_cons]
          congr 1
          refine ih h.tail (by omega) n ?_
          intro height hmem
          rw [← Option.some.inj hmem, h.head]

end Heights

/-! ## A peer with all blocks -/

/-- The files hold the first blocks, every epoch that has ended among them. -/
structure Persisted (C : Crypto) (J : BlockJson) (disk : Option EpochStore) (bs : List Block)
    (count : Nat) : Prop where
  stores : ∃ store, disk = some store ∧ Stores C J store (bs.take count)
  writes : ∀ b ∈ bs, J.Writes b
  epochs : 1000 * (bs.length / 1000) ≤ count
  le : count ≤ bs.length

/-- The peer has these blocks: the last ones in memory, the others in files. -/
structure Serves (C : Crypto) (J : BlockJson) (blockSize : Nat) (srv : SyncServer)
    (bs : List Block) : Prop where
  tip : srv.chain.tipH.toNat = bs.length
  blocks : srv.chain.blocks = bs.drop (bs.length - tailBlockCap)
  heights : ConsecutiveHeights bs
  hashes : (bs.map fun b => hexEncode (hdrHash C b.hdr)).Nodup
  disk : bs.length ≤ tailBlockCap ∨ ∃ count, Persisted C J srv.disk bs count
  room : 4096 * blockSize ≤ isizeMax
  fits : bs.length + 1 < 2 ^ 64

section Answers

variable {C : Crypto} {J : BlockJson} {blockSize : Nat} {srv : SyncServer} {bs : List Block}

theorem ConsecutiveHeights.take (hc : ConsecutiveHeights bs) (n : Nat) :
    ConsecutiveHeights (bs.take n) := by
  intro k b hk
  by_cases hlt : k < n
  · rw [List.getElem?_take_of_lt hlt] at hk
    exact hc k b hk
  · rw [List.getElem?_eq_none (by rw [List.length_take]; omega)] at hk
    cases hk

/-- The heights of the blocks in memory. -/
theorem Serves.memory (h : Serves C J blockSize srv bs) :
    HeightsFrom (bs.length - 1000) srv.chain.blocks := by
  have hmem := h.heights.heightsFrom.drop (bs.length - tailBlockCap)
  rw [Nat.zero_add] at hmem
  rw [h.blocks]
  exact hmem

/-- Files of a peer whose memory does not begin at the first block. -/
theorem Serves.persisted (h : Serves C J blockSize srv bs) (hlong : 1000 < bs.length) :
    ∃ count, Persisted C J srv.disk bs count := by
  rcases h.disk with hshort | hdisk
  · have hcap : tailBlockCap = 1000 := rfl
    omega
  · exact hdisk

/-- A range of the files. -/
theorem Persisted.diskRange {count : Nat} (hp : Persisted C J srv.disk bs count)
    (hc : ConsecutiveHeights bs) (hfits : bs.length + 1 < 2 ^ 64) {fromH limit : U64}
    (hpos : 0 < fromH.toNat) (hle : fromH.toNat ≤ count) (hlimit : 0 < limit.toNat)
    (hroom : limit.toNat * blockSize ≤ isizeMax) {use : List Block → Bool} {rows : List Block}
    (huse : use (((bs.take count).drop (fromH.toNat - 1)).take limit.toNat) = true) :
    srv.diskRange J blockSize fromH limit use rows =
      .ok (((bs.take count).drop (fromH.toNat - 1)).take limit.toNat) := by
  obtain ⟨store, hdisk, hstores⟩ := hp.stores
  have hlen : (bs.take count).length = count := List.length_take_of_le hp.le
  have hne : limit ≠ 0#64 := by
    rintro rfl
    exact absurd hlimit (lt_irrefl _)
  have hwrites : ∀ b ∈ bs.take count, J.Writes b := fun b hb =>
    hp.writes b (List.mem_of_mem_take hb)
  have hrange := (hstores.cons_iff hwrites (hc.take count) hpos (by rwa [hlen]) hne).mpr
    ⟨hroom, .inl (by rw [hlen]; have := hp.le; omega)⟩
  rw [SyncServer.diskRange, hdisk]
  dsimp only
  rw [hrange]
  dsimp only
  rw [if_pos huse]

/-- Headers that a peer has are found, at least one and at most so many. -/
theorem Serves.hdrRows (h : Serves C J blockSize srv bs) {fromH : U64} (reqLim : U16)
    (hpos : 0 < fromH.toNat) (hle : fromH.toNat ≤ bs.length) (hlim : 0 < reqLim.toNat)
    (hmost : reqLim.toNat ≤ 4096) :
    ∃ k, 0 < k ∧ k ≤ reqLim.toNat ∧ fromH.toNat - 1 + k ≤ bs.length ∧
      srv.hdrRows J blockSize fromH reqLim = .ok ((bs.drop (fromH.toNat - 1)).take k) := by
  have hmemory := h.memory
  have hfits := h.fits
  have hlength : srv.chain.blocks.length = min bs.length 1000 := by
    rw [h.blocks, List.length_drop]
    have hcap : tailBlockCap = 1000 := rfl
    omega
  have hge := hmemory.filter_ge fromH
  have hdrop := hmemory.drop (fromH.toNat - 1 - (bs.length - 1000))
  have hmem : takeFollowing reqLim.toNat none
      (srv.chain.blocks.filter fun b => decide (fromH ≤ b.hdr.height)) =
        (srv.chain.blocks.drop (fromH.toNat - 1 - (bs.length - 1000))).take reqLim.toNat := by
    rw [hge]
    apply takeFollowing_eq hdrop
    · rw [List.length_drop, hlength]
      omega
    · intro height hnone
      cases hnone
  have hne : (srv.chain.blocks.drop (fromH.toNat - 1 - (bs.length - 1000))).take reqLim.toNat ≠
      [] := by
    apply List.ne_nil_of_length_pos
    rw [List.length_take, List.length_drop, hlength]
    omega
  have hstart := (hdrop.take reqLim.toNat).startsAt hne fromH
  unfold SyncServer.hdrRows
  rw [hmem]
  by_cases hrecent : bs.length - 1000 < fromH.toNat
  · -- the memory has the rest of the chain
    have hblocks : srv.chain.blocks.drop (fromH.toNat - 1 - (bs.length - 1000)) =
        bs.drop (fromH.toNat - 1) := by
      have hcap : tailBlockCap = 1000 := rfl
      have hsum : bs.length - tailBlockCap + (fromH.toNat - 1 - (bs.length - 1000)) =
          fromH.toNat - 1 := by
        omega
      rw [h.blocks, List.drop_drop, hsum]
    have htake : (bs.drop (fromH.toNat - 1)).take reqLim.toNat =
        (bs.drop (fromH.toNat - 1)).take
          (min reqLim.toNat (bs.length - (fromH.toNat - 1))) := by
      rw [List.take_eq_take_iff, List.length_drop]
      omega
    refine ⟨min reqLim.toNat (bs.length - (fromH.toNat - 1)), by omega, by omega, by omega, ?_⟩
    rw [if_pos (hstart.mpr (by omega)), hblocks, htake]
  · obtain ⟨count, hp⟩ := h.persisted (by omega)
    have hepochs := hp.epochs
    have hcount := hp.le
    have hdisk : ((bs.take count).drop (fromH.toNat - 1)).take reqLim.toNat =
        (bs.drop (fromH.toNat - 1)).take (min reqLim.toNat (count - (fromH.toNat - 1))) := by
      rw [List.drop_take, List.take_take]
    have hwidth : (reqLim.setWidth 64).toNat = reqLim.toNat := by
      have hlt := reqLim.isLt
      rw [toNat_setWidth, Nat.mod_eq_of_lt (by omega)]
    have hdiskNe : (bs.drop (fromH.toNat - 1)).take
        (min reqLim.toNat (count - (fromH.toNat - 1))) ≠ [] := by
      apply List.ne_nil_of_length_pos
      rw [List.length_take, List.length_drop]
      omega
    have hheights := (h.heights.heightsFrom.drop (fromH.toNat - 1)).take
      (min reqLim.toNat (count - (fromH.toNat - 1)))
    refine ⟨min reqLim.toNat (count - (fromH.toNat - 1)), by omega, by omega, by omega, ?_⟩
    rw [if_neg (fun hs => hrecent (by have := hstart.mp hs; omega)), ← hdisk, ← hwidth]
    apply hp.diskRange h.heights hfits hpos (by omega) (by omega)
    · rw [hwidth]
      exact (Nat.mul_le_mul_right _ hmost).trans h.room
    · rw [decide_eq_true_iff, hwidth, hdisk]
      exact (hheights.startsAt hdiskNe fromH).mpr (by omega)

/-- A header request in form is answered with what follows the height, one block at least. -/
theorem Serves.onHdrReq (h : Serves C J blockSize srv bs) {caps : SyncCaps} {fromH : U64}
    {limit : U16} (hform : (SyncAsk.headersReq fromH limit).InForm caps)
    (hle : fromH.toNat ≤ bs.length) :
    ∃ k, 0 < k ∧ k ≤ limit.toNat ∧ fromH.toNat - 1 + k ≤ bs.length ∧
      srv.onHdrReq C J blockSize caps fromH limit =
        .ok [.headersBatch (((bs.drop (fromH.toNat - 1)).take k).map (headerWire C))] := by
  obtain ⟨hfrom, hlimit, hmost⟩ := id hform
  have hhard := hdrHard_toNat caps
  have hpos : 0 < fromH.toNat := by
    rw [Nat.pos_iff_ne_zero]
    exact fun hzero => hfrom (BitVec.eq_of_toNat_eq hzero)
  have hsome : 0 < limit.toNat := by
    rw [Nat.pos_iff_ne_zero]
    exact fun hzero => hlimit (BitVec.eq_of_toNat_eq hzero)
  rw [le_def] at hmost
  have hone : (1#16 : U16).toNat = 1 := rfl
  have hreq : (limit.umin caps.hdrHard).umax 1#16 = limit := by
    apply BitVec.eq_of_toNat_eq
    rw [toNat_umax, toNat_umin, hone]
    omega
  obtain ⟨k, hk, hklim, hkend, hrows⟩ := h.hdrRows limit hpos hle hsome (by omega)
  refine ⟨k, hk, hklim, hkend, ?_⟩
  have hne : (bs.drop (fromH.toNat - 1)).take k ≠ [] := by
    apply List.ne_nil_of_length_pos
    rw [List.length_take, List.length_drop]
    omega
  have hheights := (h.heights.heightsFrom.drop (fromH.toNat - 1)).take k
  have hstarts : startsAt fromH ((bs.drop (fromH.toNat - 1)).take k) :=
    (hheights.startsAt hne fromH).mpr (by omega)
  rw [SyncServer.onHdrReq, hreq]
  exact except_bind_ok_iff.mpr ⟨(), check_ok_iff.mpr hform, except_bind_ok_iff.mpr
    ⟨_, hrows, except_bind_ok_iff.mpr ⟨(), check_ok_iff.mpr hstarts, rfl⟩⟩⟩

theorem windowSize_toNat {fromH toH : U64} (hpos : 0 < fromH.toNat)
    (hle : fromH.toNat ≤ toH.toNat) :
    ((toH.saturatingSub fromH).saturatingAdd 1#64).toNat = toH.toNat + 1 - fromH.toNat := by
  have hone : (1#64 : U64).toNat = 1 := rfl
  have hlt := toH.isLt
  rw [toNat_saturatingAdd, toNat_saturatingSub, hone]
  omega

/-- A window that ends with its epoch or with the tip is found. -/
theorem Serves.cupRows (h : Serves C J blockSize srv bs) {fromH toH : U64}
    (hpos : 0 < fromH.toNat) (hle : fromH.toNat ≤ toH.toNat)
    (hto : toH.toNat = min bs.length (1000 * ((fromH.toNat - 1) / 1000) + 1000)) :
    srv.cupRows J blockSize fromH toH =
      .ok ((bs.drop (fromH.toNat - 1)).take (toH.toNat + 1 - fromH.toNat)) := by
  have hmemory := h.memory
  have hfits := h.fits
  have hcap : tailBlockCap = 1000 := rfl
  have hlength : (bs.drop (fromH.toNat - 1)).length = bs.length - (fromH.toNat - 1) :=
    List.length_drop ..
  have hne : (bs.drop (fromH.toNat - 1)).take (toH.toNat + 1 - fromH.toNat) ≠ [] := by
    apply List.ne_nil_of_length_pos
    rw [List.length_take]
    omega
  have hheights := (h.heights.heightsFrom.drop (fromH.toNat - 1)).take
    (toH.toNat + 1 - fromH.toNat)
  have hspans : spans fromH toH
      ((bs.drop (fromH.toNat - 1)).take (toH.toNat + 1 - fromH.toNat)) := by
    apply hheights.spans hne
    · omega
    · rw [List.length_take]
      omega
  unfold SyncServer.cupRows
  dsimp only
  by_cases hrecent : bs.length - 1000 < fromH.toNat
  · have hmem : srv.chain.blocks.filter
        (fun b => decide (fromH ≤ b.hdr.height ∧ b.hdr.height ≤ toH)) =
          (bs.drop (fromH.toNat - 1)).take (toH.toNat + 1 - fromH.toNat) := by
      have hsum : bs.length - tailBlockCap + (fromH.toNat - 1 - (bs.length - 1000)) =
          fromH.toNat - 1 := by
        omega
      rw [hmemory.filter_range fromH toH hrecent, h.blocks, List.drop_drop, hsum]
    rw [hmem, if_pos hspans]
  · -- the memory begins above the window
    have hnot : ¬ spans fromH toH (srv.chain.blocks.filter
        fun b => decide (fromH ≤ b.hdr.height ∧ b.hdr.height ≤ toH)) := by
      rintro ⟨hstarts, -⟩
      rw [startsAt, Option.map_eq_some_iff] at hstarts
      obtain ⟨b, hhead, hheight⟩ := hstarts
      have hmem := List.mem_of_mem_filter (List.mem_of_mem_head? hhead)
      have habove := hmemory.mem_height hmem
      rw [hheight] at habove
      omega
    obtain ⟨count, hp⟩ := h.persisted (by omega)
    have hepochs := hp.epochs
    have hcount := hp.le
    have hlimit := windowSize_toNat hpos hle
    have hdisk : ((bs.take count).drop (fromH.toNat - 1)).take
        ((toH.saturatingSub fromH).saturatingAdd 1#64).toNat =
          (bs.drop (fromH.toNat - 1)).take (toH.toNat + 1 - fromH.toNat) := by
      have hmin : min (toH.toNat + 1 - fromH.toNat) (count - (fromH.toNat - 1)) =
          toH.toNat + 1 - fromH.toNat := by
        omega
      rw [hlimit, List.drop_take, List.take_take, hmin]
    rw [if_neg hnot, ← hdisk]
    apply hp.diskRange h.heights hfits hpos (by omega) (by omega)
    · rw [hlimit]
      exact (Nat.mul_le_mul_right _ (by omega)).trans h.room
    · rw [decide_eq_true_iff, hdisk]
      exact hspans

/-- Two blocks of the peer with one hash are the same block. -/
theorem Serves.hash_inj (h : Serves C J blockSize srv bs) {b b' : Block} (hb : b ∈ bs)
    (hb' : b' ∈ bs) (hsame : hexEncode (hdrHash C b'.hdr) = hexEncode (hdrHash C b.hdr)) :
    b' = b :=
  List.inj_on_of_nodup_map h.hashes hb' hb hsame

/-- A block of the peer is found by its hash and height. -/
theorem Serves.blockAtHeight (h : Serves C J blockSize srv bs) {b : Block} (hb : b ∈ bs) :
    srv.blockAtHeight C J (hexEncode (hdrHash C b.hdr), b.hdr.height) = .ok b := by
  have hmemory : ∀ b' ∈ srv.chain.blocks, b' ∈ bs := by
    intro b' hmem
    rw [h.blocks] at hmem
    exact List.mem_of_mem_drop hmem
  unfold SyncServer.blockAtHeight SyncServer.findHash
  cases hfind : srv.chain.blocks.find?
      fun b' => decide (hexEncode (hdrHash C b'.hdr) = hexEncode (hdrHash C b.hdr)) with
  | some b' =>
      have hsame := List.find?_some hfind
      rw [decide_eq_true_iff] at hsame
      rw [h.hash_inj hb (hmemory b' (List.mem_of_find?_eq_some hfind)) hsame]
  | none =>
      -- the block is not in memory, so it is in a file
      obtain ⟨k, hk⟩ := List.mem_iff_getElem?.mp hb
      have hheight := h.heights k b hk
      have hold : k + 1 ≤ bs.length - 1000 := by
        by_contra hrecent
        have hmem : b ∈ srv.chain.blocks := by
          rw [h.blocks, List.mem_iff_getElem?]
          have hcap : tailBlockCap = 1000 := rfl
          have hindex : bs.length - tailBlockCap + (k - (bs.length - tailBlockCap)) = k := by
            omega
          refine ⟨k - (bs.length - tailBlockCap), ?_⟩
          rw [List.getElem?_drop, hindex, hk]
        have hnone := List.find?_eq_none.mp hfind b hmem
        exact hnone (decide_eq_true rfl)
      obtain ⟨count, hp⟩ := h.persisted (by omega)
      obtain ⟨store, hdisk, hstores⟩ := hp.stores
      have hepochs := hp.epochs
      have hlen : (bs.take count).length = count := List.length_take_of_le hp.le
      have hloaded : loadBlockAtHeight J store b.hdr.height = .ok (some b) := by
        rw [hstores.height (fun b hb => hp.writes b (List.mem_of_mem_take hb))
          (h.heights.take count) (by omega) (by rw [hlen]; omega), hheight, Nat.add_sub_cancel,
          List.getElem?_take_of_lt (by omega), hk]
      simp only [hdisk, orFail, SyncServer.diskBlock, hloaded, Except.mapError, check, if_true,
        bind, Except.bind, pure, Except.pure]

/-- What a request names of blocks. -/
def askRows (C : Crypto) (blocks : List Block) : List (U64 × String) :=
  blocks.map fun b => (b.hdr.height, hexEncode (hdrHash C b.hdr))

/-- A block request for blocks of the peer is answered with them. -/
theorem Serves.onBlkReq (h : Serves C J blockSize srv bs) (caps : SyncCaps) {blocks : List Block}
    (hne : blocks ≠ []) (hlength : blocks.length ≤ caps.blkHard.toNat)
    (hmem : ∀ b ∈ blocks, b ∈ bs) :
    srv.onBlkReq C J caps ((askRows C blocks).map Prod.snd)
        (some ((askRows C blocks).map Prod.fst)) =
      .ok [.blocksBatch (blocks.map (blockWire C))] := by
  have hform : (SyncAsk.blocksReq ((askRows C blocks).map Prod.snd)
      (some ((askRows C blocks).map Prod.fst))).InForm caps := by
    refine ⟨?_, ?_, ?_⟩
    · rw [ne_eq, List.map_eq_nil_iff, askRows, List.map_eq_nil_iff]
      exact hne
    · rw [List.length_map, askRows, List.length_map]
      exact hlength
    · intro hs hsome
      obtain rfl := Option.some.inj hsome
      rw [List.length_map, List.length_map]
  have hzip : ((askRows C blocks).map Prod.snd).zip ((askRows C blocks).map Prod.fst) =
      blocks.map fun b => (hexEncode (hdrHash C b.hdr), b.hdr.height) := by
    rw [askRows, List.map_map, List.map_map, List.zip_map']
    rfl
  have hrows : srv.blkRows C J ((askRows C blocks).map Prod.snd)
      (some ((askRows C blocks).map Prod.fst)) = .ok blocks := by
    rw [SyncServer.blkRows, hzip]
    exact mapM_map_ok fun b hb => h.blockAtHeight (hmem b hb)
  exact except_bind_ok_iff.mpr ⟨(), check_ok_iff.mpr ⟨hform.1, hform.2.1⟩,
    except_bind_ok_iff.mpr ⟨(), check_ok_iff.mpr hform.2.2,
      except_bind_ok_iff.mpr ⟨blocks, hrows, rfl⟩⟩⟩

/-- The messages for a window. -/
def windowAnswers (C : Crypto) (epochId endH : U64) (rows : List Block) : List SyncAnswer :=
  (chunks syncCupChunkCap rows).mapIdx (SyncServer.cupChunk C epochId) ++
    [.done epochId endH ((rows.getLast?.map fun b => hexEncode (hdrHash C b.hdr)).getD "")]

/-- A window in form that ends with its epoch or with the tip is answered in full. -/
theorem Serves.onCupReq (h : Serves C J blockSize srv bs) {caps : SyncCaps}
    {fromH toH epochId : U64} {anchorHash : String}
    (hform : (SyncAsk.catchupReq fromH toH epochId anchorHash).InForm caps)
    (hto : toH.toNat = min bs.length (1000 * ((fromH.toNat - 1) / 1000) + 1000)) :
    srv.onCupReq C J blockSize fromH toH epochId = .ok (windowAnswers C epochId toH
      ((bs.drop (fromH.toNat - 1)).take (toH.toNat + 1 - fromH.toNat))) := by
  obtain ⟨hne, hle, hsize, hfirst, hlast⟩ := hform
  have hpos : 0 < fromH.toNat := by
    rw [Nat.pos_iff_ne_zero]
    exact fun hzero => hne (BitVec.eq_of_toNat_eq hzero)
  rw [le_def] at hle
  have hrows := h.cupRows hpos hle hto
  have hheights := (h.heights.heightsFrom.drop (fromH.toNat - 1)).take
    (toH.toNat + 1 - fromH.toNat)
  have hlength : ((bs.drop (fromH.toNat - 1)).take (toH.toNat + 1 - fromH.toNat)).length =
      toH.toNat + 1 - fromH.toNat := by
    rw [List.length_take, List.length_drop]
    omega
  have hspans : spans fromH toH
      ((bs.drop (fromH.toNat - 1)).take (toH.toNat + 1 - fromH.toNat)) := by
    apply hheights.spans (List.ne_nil_of_length_pos (by omega)) (by omega)
    rw [hlength]
    omega
  simp only [SyncServer.onCupReq, hfirst, hlast, Except.mapError, hrows, windowAnswers]
  exact except_bind_ok_iff.mpr ⟨(), check_ok_iff.mpr ⟨hne, le_def.mpr hle, hsize⟩,
    except_bind_ok_iff.mpr ⟨_, rfl, except_bind_ok_iff.mpr ⟨(), check_ok_iff.mpr rfl,
      except_bind_ok_iff.mpr ⟨_, rfl, except_bind_ok_iff.mpr ⟨(), check_ok_iff.mpr rfl,
        except_bind_ok_iff.mpr ⟨_, rfl, except_bind_ok_iff.mpr
          ⟨(), check_ok_iff.mpr hspans, rfl⟩⟩⟩⟩⟩⟩⟩

end Answers

end Pwm
