import WireSpaces.ReceiverSteps

/-!
The receive window as a representation: which segments the counters and the
bitmap say were received, what the grant is, and that accepting a segment adds
exactly that segment in either build.
-/
namespace WireSpaces.ReceiverWindow
open WireSpaces.Words WireSpaces.Codec WireSpaces.ReceiverEngine WireSpaces.ReceiverSteps

theorem lowBitMask_run (count : Nat) : LowRun (lowBitMask count) count := by
  unfold lowBitMask
  split
  · rename_i full
    have all : LowRun (0xFFFF : U16) 16 := lowRun_ofNat 16 16
    exact lowRun_full all full
  · split
    · rename_i zero
      subst zero
      exact lowRun_zero
    · exact lowRun_ofNat 16 count

/-- The mask of the span changes nothing when no bit lies beyond it. -/
theorem and_lowBitMask {x : U16} {count : Nat} (clear : ∀ j, count ≤ j → x.getLsbD j = false) :
    x &&& lowBitMask count = x := by
  apply BitVec.eq_of_getLsbD_eq
  intro j inside
  rw [BitVec.getLsbD_and,lowBitMask_run count j]
  by_cases low : j < count
  · simp [low,inside]
  · simp [clear j (by omega)]

theorem popcount16_masked_le (x : U16) (count : Nat) : popcount16 (x &&& lowBitMask count) ≤ count := by
  apply clearLowest_le
  intro j beyond
  rw [BitVec.getLsbD_and,lowBitMask_run count j]
  simp [show ¬ j < count by omega]

/-- The extension loop raises the grant until the span is the width or the object ends. -/
theorem extendGrant_eq {width segmentCount fuel grantedEnd windowSpan unreceived : Nat}
    (few : unreceived ≤ windowSpan) (span : windowSpan ≤ width) (narrow : width ≤ 16) (enough : width ≤ fuel + windowSpan)
    (granted : grantedEnd ≤ segmentCount) :
    extendGrant width segmentCount fuel grantedEnd windowSpan unreceived =
      min segmentCount (grantedEnd + (width - windowSpan)) := by
  induction fuel generalizing grantedEnd windowSpan unreceived with
  | zero => simp only [extendGrant]; omega
  | succ fuel ih =>
    rw [extendGrant]
    by_cases more : grantedEnd < segmentCount ∧ windowSpan < width ∧ unreceived < width
    · rw [if_pos more,ih (by omega) (by omega) (by omega) (by omega)]
      omega
    · rw [if_neg more]
      omega

section window
variable {b : Build}

theorem width_le_limit (b : Build) : b.config.receiveWindowWidth ≤ 16 := b.width_le.trans b.limit_le

/-- Both builds of `updateGrant` grant the whole window, up to the object's end. -/
theorem updateGrant_eq {s : Engine} (width : 0 < b.config.receiveWindowWidth) (granted : s.grantedEnd ≤ s.segmentCount)
    (base : s.contiguousCount ≤ s.grantedEnd) (span : s.grantedEnd ≤ s.contiguousCount + b.config.receiveWindowWidth)
    (small : s.segmentCount ≤ 2 ^ 16) :
    updateGrant b s =
      { s with grantedEnd := min s.segmentCount (s.contiguousCount + b.config.receiveWindowWidth) } := by
  have widthLe := b.width_le
  have limitLe := width_le_limit b
  unfold updateGrant
  by_cases narrow : b.windowLimit = 1
  · have one : b.config.receiveWindowWidth = 1 := by omega
    rw [if_pos narrow,one]
    congr 1
    split <;> omega
  · rw [if_neg narrow]
    have spanIs : sub32 s.grantedEnd s.contiguousCount = s.grantedEnd - s.contiguousCount := sub32_of_le base (by omega)
    have few := popcount16_masked_le s.receiveBitmap (s.grantedEnd - s.contiguousCount)
    have unreceived : sub32 (s.grantedEnd - s.contiguousCount)
        (popcount16 (s.receiveBitmap &&& lowBitMask (s.grantedEnd - s.contiguousCount))) ≤
        s.grantedEnd - s.contiguousCount := by rw [sub32_of_le few (by omega)]; omega
    simp only [spanIs,Nat.mod_eq_of_lt (show s.grantedEnd - s.contiguousCount < 2 ^ 8 by omega)]
    rw [extendGrant_eq ((Nat.mod_le _ _).trans unreceived) (by omega) limitLe (by omega) granted]
    congr 1
    omega

/-- The segment indices the counters and the bitmap stand for. -/
def Received (s : Engine) (index : Nat) : Prop :=
  index < s.contiguousCount ∨ s.contiguousCount ≤ index ∧ s.receiveBitmap.getLsbD (index - s.contiguousCount) = true

/-- The shape of the window of an accepted transfer. -/
structure Window (b : Build) (s : Engine) : Prop where
  admissible : Admissible b s.setup
  count : s.segmentCount = s.setup.finalSegmentIndex.toNat + 1
  contiguous : s.contiguousCount ≤ s.segmentCount
  granted : s.grantedEnd = min s.segmentCount (s.contiguousCount + b.config.receiveWindowWidth)
  base_clear : s.receiveBitmap.getLsbD 0 = false
  span_clear : ∀ j, s.grantedEnd - s.contiguousCount ≤ j → s.receiveBitmap.getLsbD j = false
  narrow_bitmap : b.windowLimit = 1 → s.receiveBitmap = 0
  narrow_offset : b.windowLimit = 1 → s.contiguousCount < s.segmentCount →
    s.nextObjectOffset = s.contiguousCount * s.setup.segmentSize.toNat

theorem Window.small {s : Engine} (window : Window b s) : s.segmentCount ≤ 2 ^ 16 := by
  have := s.setup.finalSegmentIndex.isLt
  rw [window.count]; omega

theorem Window.base_not_received {s : Engine} (window : Window b s) : ¬ Received s s.contiguousCount := by
  rintro (below | ⟨-,set⟩)
  · omega
  · rw [Nat.sub_self,window.base_clear] at set
    exact Bool.false_ne_true set

/-- The offset of every segment fits 32 bits. -/
theorem offset_lt {setup : Setup} {index : Nat} (known : index ≤ setup.finalSegmentIndex.toNat) :
    index * setup.segmentSize.toNat < 2 ^ 32 := by
  have last := setup.finalSegmentIndex.isLt
  have size := setup.segmentSize.isLt
  calc index * setup.segmentSize.toNat ≤ 65535 * 65535 := Nat.mul_le_mul (by omega) (by omega)
    _ < 2 ^ 32 := by norm_num

/-- Either build hands a fresh segment over at its index times the segment size. -/
theorem Window.objectOffset_eq {s : Engine} (window : Window b s) {message payload : Bytes} {index : Nat}
    (fresh : Fresh b s message index payload) : objectOffset b s index = index * s.setup.segmentSize.toNat := by
  have known := fresh.known
  rw [window.count] at known
  unfold objectOffset
  by_cases narrow : b.windowLimit = 1
  · have next : index = s.contiguousCount := by simpa [Unreceived,narrow] using fresh.unreceived
    rw [if_pos narrow,window.narrow_offset narrow (next ▸ fresh.known),next]
  · rw [if_neg narrow,Nat.mod_eq_of_lt (offset_lt (by omega))]

theorem Window.fresh_not_received {s : Engine} (window : Window b s) {message payload : Bytes} {index : Nat}
    (fresh : Fresh b s message index payload) : ¬ Received s index := by
  have unreceived := fresh.unreceived
  by_cases narrow : b.windowLimit = 1
  · simp only [Unreceived,narrow,if_true] at unreceived
    rw [unreceived]
    exact window.base_not_received
  · simp only [Unreceived,narrow,if_false] at unreceived
    rintro (below | ⟨-,set⟩)
    · exact absurd fresh.from_base (by omega)
    · rw [unreceived.2] at set
      exact Bool.false_ne_true set

/-! ### Accepting a segment -/

/-- What accepting segment `index` makes of the window: the segment is added,
    nothing is withdrawn and the transfer stays the same. -/
structure Adds (b : Build) (s : Engine) (index : Nat) (t : Engine) : Prop where
  window : Window b t
  setup : t.setup = s.setup
  count : t.segmentCount = s.segmentCount
  state : t.state = s.state
  contiguous : s.contiguousCount ≤ t.contiguousCount
  granted : s.grantedEnd ≤ t.grantedEnd
  received : ∀ i, Received t i ↔ Received s i ∨ i = index

private theorem advanced_narrow {s : Engine} (window : Window b s) {message payload : Bytes} {index : Nat}
    (fresh : Fresh b s message index payload) (narrow : b.windowLimit = 1) :
    Adds b s index (advanced b index payload s) := by
  have next : index = s.contiguousCount := by simpa [Unreceived,narrow] using fresh.unreceived
  have known := fresh.known
  have count := window.count
  have contiguous := window.contiguous
  have granted := window.granted
  have width : b.config.receiveWindowWidth = 1 := by
    have := b.width_le
    have := window.admissible.width
    omega
  have small := window.small
  have zero := window.narrow_bitmap narrow
  have moved : advanced b index payload s = { s with
      contiguousCount := s.contiguousCount + 1,
      nextObjectOffset := (s.nextObjectOffset + payload.length) % 2 ^ 32,
      grantedEnd := min s.segmentCount (s.contiguousCount + 1 + 1) } := by
    unfold advanced advanceWindow
    rw [if_pos narrow,updateGrant_eq window.admissible.width] <;> dsimp only <;> (try rw [width]) <;> omega
  rw [moved]
  refine ⟨⟨window.admissible,count,by dsimp only; omega,by dsimp only; rw [width],?_,?_,?_,?_⟩,rfl,rfl,rfl,?_,?_,?_⟩
  · exact window.base_clear
  · intro j _
    simp [zero]
  · intro _
    exact zero
  · -- Before the last segment every payload has the full segment size.
    intro _ more
    dsimp only at more ⊢
    have inner : (BitVec.ofNat 16 index : U16) ≠ s.setup.finalSegmentIndex := by
      intro same
      have := congrArg BitVec.toNat same
      rw [BitVec.toNat_ofNat,Nat.mod_eq_of_lt fresh.small] at this
      omega
    have size := fresh.size
    rw [expectedSize,if_neg inner] at size
    rw [window.narrow_offset narrow (by omega),size,
      Nat.mod_eq_of_lt (by rw [← Nat.succ_mul]; exact offset_lt (by omega)),← Nat.succ_mul]
  · dsimp only; omega
  · dsimp only; omega
  · intro i
    simp only [Received,zero,next]
    simp
    omega

private theorem advanced_wide {s : Engine} (window : Window b s) {message payload : Bytes} {index : Nat}
    (fresh : Fresh b s message index payload) (wide : b.windowLimit ≠ 1) :
    Adds b s index (advanced b index payload s) := by
  have known := fresh.known
  have fromBase := fresh.from_base
  have inGrant := fresh.granted
  have count := window.count
  have contiguous := window.contiguous
  have granted := window.granted
  have widthLe := width_le_limit b
  have small := window.small
  obtain ⟨offset,offsetIs⟩ : ∃ offset, index = s.contiguousCount + offset := ⟨index - s.contiguousCount,by omega⟩
  set x := s.receiveBitmap ||| (1#16 <<< offset) with xIs
  have bit : ∀ j, x.getLsbD j = true ↔ s.receiveBitmap.getLsbD j = true ∨ j = offset := by
    intro j
    rw [xIs,BitVec.getLsbD_or,testBit_shiftLeft_one]
    simp only [Bool.or_eq_true,decide_eq_true_eq]
    constructor
    · rintro (set | ⟨same,-⟩)
      · exact .inl set
      · exact .inr same
    · rintro (set | same)
      · exact .inl set
      · exact .inr ⟨same,by omega⟩
  have within : ∀ j, x.getLsbD j = true → j < s.grantedEnd - s.contiguousCount := by
    intro j set
    rcases (bit j).mp set with old | same
    · by_contra beyond
      rw [window.span_clear j (by omega)] at old
      exact Bool.false_ne_true old
    · omega
  obtain ⟨n,result,shifted,stops⟩ := shiftOnes_spec 16 x s.contiguousCount
  have shiftedLe : s.contiguousCount + n ≤ s.grantedEnd := by
    rcases Nat.eq_zero_or_pos n with zero | positive
    · omega
    · have := within (n - 1) (shifted (n - 1) (by omega))
      omega
  have moved : advanced b index payload s = { s with
      contiguousCount := s.contiguousCount + n,
      receiveBitmap := x >>> n,
      grantedEnd := min s.segmentCount (s.contiguousCount + n + b.config.receiveWindowWidth) } := by
    unfold advanced advanceWindow
    rw [if_neg wide,show index - s.contiguousCount = offset by omega,← xIs,result,
      updateGrant_eq window.admissible.width] <;> dsimp only <;> omega
  rw [moved]
  refine ⟨⟨window.admissible,count,by dsimp only; omega,rfl,?_,?_,fun narrow => absurd narrow wide,
    fun narrow => absurd narrow wide⟩,rfl,rfl,rfl,?_,?_,?_⟩
  · simpa [BitVec.getLsbD_ushiftRight] using stops (le_refl 16)
  · intro j beyond
    dsimp only at beyond ⊢
    rw [BitVec.getLsbD_ushiftRight]
    by_contra set
    have := within (n + j) (by simpa using set)
    omega
  · dsimp only; omega
  · dsimp only; omega
  · -- The bits move down with the base, so the set of indices only gains `index`.
    intro i
    simp only [Received,BitVec.getLsbD_ushiftRight]
    constructor
    · rintro (below | ⟨above,set⟩)
      · by_cases old : i < s.contiguousCount
        · exact .inl (.inl old)
        · rcases (bit (i - s.contiguousCount)).mp (shifted _ (by omega)) with set | same
          · exact .inl (.inr ⟨by omega,set⟩)
          · exact .inr (by omega)
      · rw [show n + (i - (s.contiguousCount + n)) = i - s.contiguousCount by omega] at set
        rcases (bit _).mp set with old | same
        · exact .inl (.inr ⟨by omega,old⟩)
        · exact .inr (by omega)
    · have move (set : x.getLsbD (i - s.contiguousCount) = true) (above : s.contiguousCount ≤ i) :
          i < s.contiguousCount + n ∨
            s.contiguousCount + n ≤ i ∧ x.getLsbD (n + (i - (s.contiguousCount + n))) = true := by
        by_cases low : i < s.contiguousCount + n
        · exact .inl low
        · exact .inr ⟨by omega,by rwa [show n + (i - (s.contiguousCount + n)) = i - s.contiguousCount by omega]⟩
      rintro ((below | ⟨above,set⟩) | same)
      · exact .inl (by omega)
      · exact move ((bit _).mpr (.inl set)) above
      · exact move ((bit _).mpr (.inr (by omega))) (by omega)

/-- In either build an accepted segment is added to the window. -/
theorem advanced_adds {s : Engine} (window : Window b s) {message payload : Bytes} {index : Nat}
    (fresh : Fresh b s message index payload) : Adds b s index (advanced b index payload s) := by
  by_cases narrow : b.windowLimit = 1
  · exact advanced_narrow window fresh narrow
  · exact advanced_wide window fresh narrow

/-- A newly accepted transfer has received nothing and grants a full window. -/
theorem startReceiving_window {setup : Setup} (admissible : Admissible b setup) (nowMs : U32) (s : Engine) :
    Window b (startReceiving b setup nowMs s) ∧ (startReceiving b setup nowMs s).setup = setup ∧
      (∀ i, ¬ Received (startReceiving b setup nowMs s) i) ∧ (startReceiving b setup nowMs s).trace = s.trace := by
  have last := setup.finalSegmentIndex.isLt
  have count : setupSegmentCount setup = setup.finalSegmentIndex.toNat + 1 := by
    rw [setupSegmentCount,Nat.mod_eq_of_lt (by omega)]
  unfold startReceiving
  rw [updateGrant_eq admissible.width] <;> try (dsimp only; omega)
  refine ⟨⟨admissible,count,?_,rfl,?_,?_,?_,?_⟩,rfl,?_,rfl⟩
  · dsimp only; omega
  · simp
  · intro j _; simp
  · intro _; rfl
  · intro _ _; simp
  · intro i
    simp [Received]

/-! ### The ACK of a window -/

/-- The ACK that shows a base `contiguous`, a granted end `granted` and the bitmap above the base. -/
def ackOf (setup : Setup) (contiguous granted : Nat) (bitmap : U16) : Bytes :=
  ackBytes ⟨setup.sessionId,bitmap,setup.initialSequenceNumber + BitVec.ofNat 8 granted - 1,
    setup.initialSequenceNumber + BitVec.ofNat 8 contiguous - 1⟩

private theorem sequence_pred (x : U8) (n : Nat) : x + BitVec.ofNat 8 n = x + BitVec.ofNat 8 (n + 1) - 1 := by
  rw [BitVec.ofNat_add,← BitVec.add_assoc]
  exact (BitVec.add_sub_cancel _ _).symm

theorem baseSequence_eq (setup : Setup) (contiguous : Nat) :
    baseSequence setup contiguous = setup.initialSequenceNumber + BitVec.ofNat 8 contiguous - 1 := by
  unfold baseSequence sequenceFor
  cases contiguous with
  | zero => simp
  | succ n => rw [if_neg (Nat.succ_ne_zero n),Nat.add_sub_cancel,sequence_pred]

/-- Either build encodes exactly the window. -/
theorem Window.encodedAck_eq {s : Engine} (window : Window b s) {storage pdu : Bytes} (size : storage.length = kAckSize)
    (encoded : encodedAck b s storage = some pdu) :
    pdu = ackOf s.setup s.contiguousCount s.grantedEnd s.receiveBitmap := by
  have granted := window.granted
  have contiguous := window.contiguous
  have widthPos := window.admissible.width
  have widthLe := width_le_limit b
  unfold encodedAck at encoded
  by_cases narrow : b.windowLimit = 1
  · have width : b.config.receiveWindowWidth = 1 := by have := b.width_le; omega
    simp only [narrow,if_true,ackSequences,List.drop_eq_nil_of_le size.le,Option.some.injEq] at encoded
    rw [← encoded,ackOf,ackBytes,window.narrow_bitmap narrow]
    have maximum : (if s.contiguousCount < s.segmentCount then
        s.setup.initialSequenceNumber + BitVec.ofNat 8 s.contiguousCount - 1 + 1
        else s.setup.initialSequenceNumber + BitVec.ofNat 8 s.contiguousCount - 1) =
        s.setup.initialSequenceNumber + BitVec.ofNat 8 s.grantedEnd - 1 := by
      split
      · rw [show s.grantedEnd = s.contiguousCount + 1 by omega,← sequence_pred]
        exact BitVec.sub_add_cancel _ _
      · rw [show s.grantedEnd = s.contiguousCount by omega]
    rw [maximum,show writeU16 0 = [0,0] from rfl]
    simp
  · have base : s.contiguousCount ≤ s.grantedEnd := by omega
    have small := window.small
    have span : sub32 s.grantedEnd s.contiguousCount % 2 ^ 8 = s.grantedEnd - s.contiguousCount := by
      rw [sub32_of_le base (by omega),Nat.mod_eq_of_lt (by omega)]
    simp only [narrow,if_false,ackSequences,span,and_lowBitMask window.span_clear,encodeAck_exact size,
      Option.some.injEq] at encoded
    rw [← encoded,ackOf,baseSequence_eq]
    congr 2
    split
    · rw [sequenceFor,sequence_pred,Nat.sub_add_cancel (by omega)]
    · rw [show s.grantedEnd = s.contiguousCount by omega]

end window
end WireSpaces.ReceiverWindow
