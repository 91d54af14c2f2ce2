import Rumble.Client.PlayoutOrder

/-!
# Loss and silence

A sender numbers its packets and its end markers in one sequence and stamps only the packets with
media frames. When a frame is missing, the receiver compares how far both went since the frame it
last played, less the end markers in between, and so tells a silent sender from a lost packet. Two
steps forget end markers that are still ahead: starting over at a new talk spurt, and a ninth
pending marker. After that a short silence is counted as loss (`not_lossless`). `lossless_run`: when
no step forgets one, nothing an honest sender does is counted as loss.
-/

namespace Rumble.Client.Jitter

open Rumble.Lib Rumble.Lib.Transition Traced

/-! ## Honest senders -/

/-- What the sender put into an arrival: a sequence number and, in a voice packet, a frame. -/
def JitterEvent.sent : JitterEvent → List (UInt32 × Option Nat)
  | .packet sequence timestampUs _ _ => [(sequence, some (timestampUs / frameUs))]
  | .endOfStream sequence => [(sequence, none)]
  | .tick _ _ => []

/-- What has come in, oldest first. -/
def arrivals (es : List JitterEvent) : List (UInt32 × Option Nat) := es.flatMap JitterEvent.sent

/-- Sequence numbers go up by one, end markers included, and frames only go up. -/
structure Honest (sent : List (UInt32 × Option Nat)) : Prop where
  consecutive : sent.IsChain fun a b => b.1 = a.1 + 1
  increasing : (sent.filterMap (·.2)).Pairwise (· < ·)

section Sender

variable {sent : List (UInt32 × Option Nat)}

theorem Honest.part {part : List (UInt32 × Option Nat)} (honest : Honest sent)
    (h : part <:+: sent) : Honest part where
  consecutive := honest.consecutive.infix h
  increasing := honest.increasing.sublist (h.sublist.filterMap _)

/-- The distance of two sequence numbers is the distance of what carries them. -/
theorem Honest.seq_sub (honest : Honest sent) {i : Nat} {a : UInt32 × Option Nat}
    (ha : sent[i]? = some a) (n : Nat) {b : UInt32 × Option Nat} (hb : sent[i + n]? = some b) :
    b.1 - a.1 = UInt32.ofNat n := by
  induction n generalizing b with
  | zero =>
    obtain rfl := Option.some.inj (ha.symm.trans hb)
    simp
  | succ n ih =>
    obtain ⟨hlt, rfl⟩ := List.getElem?_eq_some_iff.mp hb
    have hnext := List.isChain_iff_getElem.mp honest.consecutive (i + n) hlt
    have hlast : sent[i + n].1 - a.1 = UInt32.ofNat n :=
      ih (List.getElem?_eq_getElem (Nat.lt_of_succ_lt hlt))
    change sent[i + n + 1].1 - a.1 = _
    rw [hnext, UInt32.ofNat_add, ← hlast]
    change sent[i + n].1 + 1 - a.1 = sent[i + n].1 - a.1 + 1
    rw [UInt32.sub_eq_add_neg, UInt32.sub_eq_add_neg, UInt32.add_assoc, UInt32.add_comm 1,
      ← UInt32.add_assoc]

theorem Honest.seq_dist (honest : Honest sent) {i j : Nat} {a b : UInt32 × Option Nat}
    (ha : sent[i]? = some a) (hb : sent[j]? = some b) (hij : i ≤ j) :
    (b.1 - a.1).toNat = (j - i) % 2 ^ 32 := by
  have hsub := honest.seq_sub ha (j - i) (b := b) (by rwa [Nat.add_sub_cancel' hij])
  rw [hsub]
  simp

theorem Honest.frame_lt (honest : Honest sent) {i j : Nat} {seq seq' : UInt32} {frame frame' : Nat}
    (ha : sent[i]? = some (seq, some frame)) (hb : sent[j]? = some (seq', some frame'))
    (hij : i < j) : frame < frame' := by
  obtain ⟨hi, ha⟩ := List.getElem?_eq_some_iff.mp ha
  obtain ⟨hj, hb⟩ := List.getElem?_eq_some_iff.mp hb
  have hpair := List.pairwise_filterMap.mp honest.increasing
  refine List.pairwise_iff_getElem.mp hpair i j hi hj hij frame ?_ frame' ?_
  · rw [ha]
  · rw [hb]

theorem Honest.index_le (honest : Honest sent) {i j : Nat} {seq seq' : UInt32} {frame frame' : Nat}
    (ha : sent[i]? = some (seq, some frame)) (hb : sent[j]? = some (seq', some frame'))
    (hle : frame ≤ frame') : i ≤ j :=
  Nat.not_lt.mp fun hji => Nat.not_le.mpr (honest.frame_lt hb ha hji) hle

/-- What is sent next has a frame ahead of all that were sent before. -/
theorem Honest.frame_ahead {seq : UInt32} {frame : Nat}
    (honest : Honest (sent ++ [(seq, some frame)])) {seq' : UInt32} {frame' : Nat}
    (h : (seq', some frame') ∈ sent) : frame' < frame := by
  have hall := honest.increasing
  rw [List.filterMap_append] at hall
  refine (List.pairwise_append.mp hall).2.2 frame' ?_ frame ?_
  · exact List.mem_filterMap.mpr ⟨_, h, rfl⟩
  · exact List.mem_singleton.mpr rfl

/-- No sequence number comes twice in less than a whole turn of the counter. -/
theorem Honest.nodup (honest : Honest sent) (hlength : sent.length ≤ 2 ^ 32) :
    (sent.map (·.1)).Nodup := by
  refine List.pairwise_map.mpr (List.pairwise_iff_getElem.mpr fun i j hi hj hij heq => ?_)
  have hdist := honest.seq_dist (List.getElem?_eq_getElem hi) (List.getElem?_eq_getElem hj) hij.le
  rw [heq, UInt32.sub_self, Nat.mod_eq_of_lt (by omega)] at hdist
  have hzero : (0 : UInt32).toNat = 0 := rfl
  omega

theorem length_eq_frames_add_markers (sent : List (UInt32 × Option Nat)) :
    sent.length = (sent.filterMap (·.2)).length + (sent.filter (·.2.isNone)).length := by
  induction sent with
  | nil => rfl
  | cons item sent ih =>
    obtain ⟨seq, frame⟩ := item
    cases frame with
    | none =>
      simp only [List.length_cons, List.filterMap_cons, List.filter_cons, Option.isNone_none,
        if_true]
      omega
    | some frame =>
      simp only [List.length_cons, List.filterMap_cons, List.filter_cons, Option.isNone_some,
        Bool.false_eq_true, if_false]
      omega

/-- When the frames of a window are among some frames and its end markers among some sequence
numbers, it is no longer than both together. -/
theorem Honest.length_le (honest : Honest sent) (hlength : sent.length ≤ 2 ^ 32)
    (frames : List Nat) (seqs : List UInt32)
    (hframes : ∀ seq frame, (seq, some frame) ∈ sent → frame ∈ frames)
    (hseqs : ∀ seq, (seq, none) ∈ sent → seq ∈ seqs) :
    sent.length ≤ frames.length + seqs.length := by
  have hvoice : (sent.filterMap (·.2)).length ≤ frames.length := by
    refine (List.Nodup.subperm (honest.increasing.imp Nat.ne_of_lt) fun frame h => ?_).length_le
    obtain ⟨⟨seq, _⟩, hmem, rfl⟩ := List.mem_filterMap.mp h
    exact hframes seq frame hmem
  have hmarker : ((sent.filter (·.2.isNone)).map (·.1)).length ≤ seqs.length := by
    have hnodup : ((sent.filter (·.2.isNone)).map (·.1)).Nodup :=
      (honest.nodup hlength).sublist (List.filter_sublist.map _)
    refine (List.Nodup.subperm hnodup fun seq h => ?_).length_le
    obtain ⟨⟨_, frame⟩, hmem, rfl⟩ := List.mem_map.mp h
    obtain ⟨hmem, hnone⟩ := List.mem_filter.mp hmem
    obtain rfl := Option.isNone_iff_eq_none.mp hnone
    exact hseqs _ hmem
  rw [List.length_map] at hmarker
  rw [length_eq_frames_add_markers]
  exact Nat.add_le_add hvoice hmarker

/-- The part of what was sent that starts at an index. -/
theorem mem_window {lo len : Nat} {item : UInt32 × Option Nat}
    (h : item ∈ (sent.drop lo).take len) : ∃ i, lo ≤ i ∧ i < lo + len ∧ sent[i]? = some item := by
  obtain ⟨n, hn⟩ := List.mem_iff_getElem?.mp h
  rw [List.getElem?_take, List.getElem?_drop] at hn
  split at hn
  · exact ⟨lo + n, Nat.le_add_right _ _, by omega, hn⟩
  · exact nomatch hn

theorem window_part (lo len : Nat) : (sent.drop lo).take len <:+: sent :=
  (List.take_prefix _ _).isInfix.trans (List.drop_suffix _ _).isInfix

end Sender

/-! ## Condition and invariant -/

namespace UserAudioState

/-- The step forgets no end marker that is ahead of what is played: a ninth one comes only while
nothing is played or buffered, and playout starts over at a new talk spurt only while no end marker
that was sent after the spurt's first buffered packet is pending. -/
def KeepsMarkers (s : UserAudioState) : JitterEvent → Prop
  | .packet .. => True
  | .endOfStream _ =>
    s.pendingEosSeqs.length < 8 ∨ (s.started = false ∧ s.jitterBuffer.entries = [])
  | .tick .. =>
    s.started = true → s.jitterBuffer.get? s.nextPlayFrame = none →
      ∀ next ∈ s.jitterBuffer.after s.nextPlayFrame, ∀ seq ∈ s.pendingEosSeqs,
        eosAhead next.2.seq seq = false

instance (s : UserAudioState) : ∀ e, Decidable (s.KeepsMarkers e)
  | .packet .. => isTrue trivial
  | .endOfStream _ => inferInstanceAs (Decidable
      (s.pendingEosSeqs.length < 8 ∨ (s.started = false ∧ s.jitterBuffer.entries = [])))
  | .tick .. =>
    -- The markers are run through, not all 32-bit numbers.
    haveI (next : UInt32) : Decidable (∀ seq ∈ s.pendingEosSeqs, eosAhead next seq = false) :=
      List.decidableBAll _ _
    inferInstanceAs (Decidable
      (s.started = true → s.jitterBuffer.get? s.nextPlayFrame = none →
        ∀ next ∈ s.jitterBuffer.after s.nextPlayFrame, ∀ seq ∈ s.pendingEosSeqs,
          eosAhead next.2.seq seq = false))

/-- The frame that the next gap is measured from: the one last played, or the first to be played. -/
def Core.gapStart (c : Core) : Nat := if c.started then c.lastFrame else c.next

/-- **The invariant.** Nothing was counted as lost. What is buffered was sent, every frame that was
sent is behind the cursor or buffered, and every end marker that was sent after the start of the
next gap is pending. -/
structure Core.Aligned (c : Core) (sent : List (UInt32 × Option Nat)) : Prop where
  sound : c.Sound
  lossless : c.lost = 0
  few : c.eos.length ≤ 8
  buffered : ∀ e ∈ c.buffer.entries, (e.2.seq, some e.1) ∈ sent
  passed : ∀ (seq : UInt32) (frame : Nat), (seq, some frame) ∈ sent →
    frame < c.next ∨ ∃ packet, (frame, packet) ∈ c.buffer.entries
  played : c.started = true → (c.lastSeq, some c.lastFrame) ∈ sent
  marked : ∀ (i j : Nat) (seq : UInt32) (frame : Nat) (seq' : UInt32), i < j →
    sent[i]? = some (seq, some frame) → c.gapStart ≤ frame → sent[j]? = some (seq', none) →
    seq' ∈ c.eos

variable {c : Core} {sent : List (UInt32 × Option Nat)}

theorem Core.Sound.gapStart_le (sound : c.Sound) : c.gapStart ≤ c.next := by
  unfold Core.gapStart
  split
  · exact Nat.le_of_lt (sound.played ‹_›)
  · exact Nat.le_refl _

/-- Little has come in since a frame that is not yet played. -/
theorem Core.Aligned.few_after (aligned : c.Aligned sent) (honest : Honest sent) {q : Nat}
    {seq : UInt32} {frame : Nat} (hq : sent[q]? = some (seq, some frame)) (hnext : c.next ≤ frame) :
    sent.length ≤ q + 29 := by
  refine Nat.not_lt.mp fun hlong => ?_
  have hwindow : ((sent.drop (q + 1)).take 29).length = 29 := by
    rw [List.length_take, List.length_drop]
    omega
  have hcount := (honest.part (window_part (q + 1) 29)).length_le (by omega)
    (c.buffer.entries.map (·.1)) c.eos (fun seq' frame' h => ?_) (fun seq' h => ?_)
  · have hsize := aligned.sound.size
    have hfew := aligned.few
    rw [hwindow, List.length_map] at hcount
    simp only [jitterBufferMaxPackets] at hsize
    omega
  · obtain ⟨i, hlo, _, hi⟩ := mem_window h
    have hlt := honest.frame_lt hq hi hlo
    rcases aligned.passed seq' frame' (List.mem_of_getElem? hi) with hbehind | ⟨packet, hmem⟩
    · omega
    · exact List.mem_map.mpr ⟨_, hmem, rfl⟩
  · obtain ⟨i, hlo, _, hi⟩ := mem_window h
    exact aligned.marked q i seq frame seq' hlo hq
      (Nat.le_trans aligned.sound.gapStart_le hnext) hi

/-- An end marker that was sent after a frame that is not yet played is pending and ahead of it. -/
theorem Core.Aligned.marker (aligned : c.Aligned sent) (honest : Honest sent) {q j : Nat}
    {seq seq' : UInt32} {frame : Nat} (hq : sent[q]? = some (seq, some frame))
    (hnext : c.next ≤ frame) (hqj : q < j) (hj : sent[j]? = some (seq', none)) :
    seq' ∈ c.eos ∧ eosAhead seq seq' = true := by
  refine ⟨aligned.marked q j seq frame seq' hqj hq
    (Nat.le_trans aligned.sound.gapStart_le hnext) hj, ?_⟩
  have hshort := aligned.few_after honest hq hnext
  have hlast : j < sent.length := (List.getElem?_eq_some_iff.mp hj).1
  have hdist : (seq' - seq).toNat = (j - q) % 2 ^ 32 := honest.seq_dist hq hj (Nat.le_of_lt hqj)
  rw [Nat.mod_eq_of_lt (by omega)] at hdist
  have hne : seq' - seq ≠ 0 := by
    intro hzero
    rw [hzero] at hdist
    have hnat : (0 : UInt32).toNat = 0 := rfl
    omega
  have hnear : (seq' - seq).toNat < u32Max / 2 := by
    simp only [u32Max]
    omega
  rw [eosAhead, decide_eq_true hne, decide_eq_true hnear]
  rfl

/-- **A gap is silence.** Between the frame last played and the next one buffered lie only frames
behind the cursor and pending end markers. -/
theorem Core.Aligned.silence {s : UserAudioState} (aligned : s.core.Aligned sent)
    (honest : Honest sent) (hstarted : s.started = true)
    (hget : s.jitterBuffer.get? s.nextPlayFrame = none) {nextFrame : Nat} {next : BufferedPacket}
    (hafter : s.jitterBuffer.after s.nextPlayFrame = some (nextFrame, next)) :
    s.silence nextFrame next.seq = true := by
  obtain ⟨hahead, hfirst⟩ := aligned.sound.after_first hget
  rw [hfirst] at hafter
  have hnext : s.nextPlayFrame < nextFrame := hahead _ (List.mem_of_head? hafter)
  have hlast : s.lastPlayedFrame < s.nextPlayFrame := aligned.sound.played hstarted
  obtain ⟨p, hp⟩ := List.mem_iff_getElem?.mp (aligned.played hstarted)
  obtain ⟨q, hq⟩ := List.mem_iff_getElem?.mp (aligned.buffered _ (List.mem_of_head? hafter))
  have hpq : p ≤ q := honest.index_le hp hq (Nat.le_of_lt (Nat.lt_trans hlast hnext))
  have hqlast : q < sent.length := (List.getElem?_eq_some_iff.mp hq).1
  have hspan : (next.seq - s.lastPlayedSeq).toNat = (q - p) % 2 ^ 32 := honest.seq_dist hp hq hpq
  have hle : (q - p) % 2 ^ 32 ≤ q - p := Nat.mod_le _ _
  unfold UserAudioState.silence
  simp only
  generalize hseqs : (fun seq : UInt32 => decide (0 < (seq - s.lastPlayedSeq).toNat) &&
    decide ((seq - s.lastPlayedSeq).toNat < (next.seq - s.lastPlayedSeq).toNat)) = inSpan
  rw [decide_eq_true_eq, List.countP_eq_length_filter, hspan]
  -- the window of what the sequence numbers say was sent in between
  have hwindow : ((sent.drop (p + 1)).take ((q - p) % 2 ^ 32 - 1)).length =
      (q - p) % 2 ^ 32 - 1 := by
    rw [List.length_take, List.length_drop]
    omega
  have hcount := (honest.part (window_part (p + 1) ((q - p) % 2 ^ 32 - 1))).length_le
    (by omega) (List.range' (s.lastPlayedFrame + 1) (s.nextPlayFrame - s.lastPlayedFrame - 1))
    (s.pendingEosSeqs.filter inSpan) (fun seq frame h => ?_) (fun seq h => ?_)
  · rw [hwindow, List.length_range'] at hcount
    omega
  · obtain ⟨i, hlo, hhi, hi⟩ := mem_window h
    have hlt : s.lastPlayedFrame < frame := honest.frame_lt hp hi hlo
    have hlt' : frame < nextFrame := honest.frame_lt hi hq (by omega)
    rcases aligned.passed seq frame (List.mem_of_getElem? hi) with hbehind | ⟨packet, hmem⟩
    · have hbehind : frame < s.nextPlayFrame := hbehind
      exact List.mem_range'_1.mpr ⟨hlt, by omega⟩
    · exact absurd (SortedMap.head?_le hafter hmem) (Nat.not_le.mpr hlt')
  · obtain ⟨i, hlo, hhi, hi⟩ := mem_window h
    have hbase : s.core.gapStart ≤ s.lastPlayedFrame := Nat.le_of_eq (if_pos hstarted)
    have hdist : (seq - s.lastPlayedSeq).toNat = (i - p) % 2 ^ 32 :=
      honest.seq_dist hp hi (by omega)
    rw [Nat.mod_eq_of_lt (by omega)] at hdist
    refine List.mem_filter.mpr ⟨aligned.marked p i _ _ seq hlo hp hbase hi, ?_⟩
    simp only [← hseqs, hspan, hdist, Bool.and_eq_true, decide_eq_true_eq]
    exact ⟨by omega, by omega⟩

/-! ## What every step keeps -/

theorem new_aligned (baseDelay now : Nat) : (new baseDelay now).core.Aligned [] where
  sound := new_sound baseDelay now
  lossless := rfl
  few := Nat.zero_le _
  buffered := fun _ h => nomatch h
  passed := fun _ _ h => nomatch h
  played := fun h => nomatch h
  marked := fun _ _ _ _ _ _ h => nomatch h

/-- What was looked up in the longer list at an index of the shorter one. -/
theorem getElem?_of_append {item item' : UInt32 × Option Nat} {i : Nat}
    (h : (sent ++ [item])[i]? = some item') : sent[i]? = some item' ∨ item' = item ∧
      i = sent.length := by
  rw [List.getElem?_append] at h
  split at h
  · exact .inl h
  · obtain ⟨hlt, heq⟩ := List.getElem?_eq_some_iff.mp h
    have hzero : i - sent.length = 0 := by simpa using hlt
    simp only [hzero, List.getElem_cons_zero] at heq
    exact .inr ⟨heq.symm, by omega⟩

/-- An end marker that came after a voice packet came before the next voice packet. -/
theorem marker_before {sequence : UInt32} {next i j : Nat} {seq seq' : UInt32} {frame : Nat}
    (hij : i < j) (hi : (sent ++ [(sequence, some next)])[i]? = some (seq, some frame))
    (hj : (sent ++ [(sequence, some next)])[j]? = some (seq', none)) :
    sent[i]? = some (seq, some frame) ∧ sent[j]? = some (seq', none) := by
  rcases getElem?_of_append hj with hj | ⟨heq, _⟩
  · refine ⟨?_, hj⟩
    have hlast := (List.getElem?_eq_some_iff.mp hj).1
    rwa [List.getElem?_append_left (Nat.lt_trans hij hlast)] at hi
  · exact nomatch (Prod.mk.inj heq).2

/-- A packet that is dropped is behind the cursor. -/
theorem Core.Aligned.late (aligned : c.Aligned sent) {late : Nat} (hlate : late ≤ lateResyncFrames)
    {sequence : UInt32} {frame : Nat} (hframe : frame < c.next) :
    ({ c with late := late } : Core).Aligned (sent ++ [(sequence, some frame)]) where
  sound := { aligned.sound with late := hlate }
  lossless := aligned.lossless
  few := aligned.few
  buffered := fun e he => List.mem_append_left _ (aligned.buffered e he)
  passed := fun seq frame' h => by
    rcases List.mem_append.mp h with h | h
    · exact aligned.passed seq frame' h
    · obtain ⟨rfl, heq⟩ := Prod.mk.inj (List.mem_singleton.mp h)
      exact .inl (Option.some.inj heq ▸ hframe)
  played := fun h => List.mem_append_left _ (aligned.played h)
  marked := fun i j seq frame' seq' hij hi hbase hj => by
    obtain ⟨hi, hj⟩ := marker_before hij hi hj
    exact aligned.marked i j seq frame' seq' hij hi hbase hj

/-- Playout starts over at a frame that is ahead of all that were sent. -/
theorem Core.Aligned.startOver {s : UserAudioState} (aligned : s.core.Aligned sent) {frame : Nat}
    (hahead : ∀ seq frame', (seq, some frame') ∈ sent → frame' < frame)
    (sound : (s.startOver frame).accept.core.Sound) :
    (s.startOver frame).accept.core.Aligned sent where
  sound := sound
  lossless := aligned.lossless
  few := Nat.zero_le _
  buffered := fun _ h => nomatch h
  passed := fun seq frame' h => .inl (hahead seq frame' h)
  played := fun h => nomatch h
  marked := fun i _ seq frame' _ _ hi hbase _ => by
    have hbase : frame ≤ frame' := hbase
    exact absurd (hahead seq frame' (List.mem_of_getElem? hi)) (Nat.not_lt.mpr hbase)

/-- A packet goes in behind all others, and what the trim loop takes out ends up behind the
cursor. -/
theorem Core.Aligned.placed {s : UserAudioState} (aligned : s.core.Aligned sent)
    {sequence : UInt32} {frame : Nat} (honest : Honest (sent ++ [(sequence, some frame)]))
    (hahead : s.started = true → s.nextPlayFrame ≤ frame) (opus : List UInt8) :
    (s.place frame ⟨sequence, opus⟩).trim.core.Aligned (sent ++ [(sequence, some frame)]) := by
  have trims := place_trims aligned.sound hahead ⟨sequence, opus⟩
  have hbehind : ∀ seq frame', (seq, some frame') ∈ sent → frame' < s.nextPlayFrame →
      frame' < (s.place frame ⟨sequence, opus⟩).trim.nextPlayFrame := by
    intro seq frame' h hlt
    have hone := behind_placed aligned.sound hahead ⟨sequence, opus⟩
      (fun played hplayed => List.mem_singleton.mp hplayed ▸ hlt)
      (fun _ played hplayed => List.mem_singleton.mp hplayed ▸ honest.frame_ahead h)
    exact hone frame' (List.mem_singleton.mpr rfl)
  have hkept : ∀ e ∈ (s.jitterBuffer.insert frame ⟨sequence, opus⟩).entries,
      e.1 < (s.place frame ⟨sequence, opus⟩).trim.nextPlayFrame ∨
        ∃ packet, (e.1, packet) ∈ (s.place frame ⟨sequence, opus⟩).trim.jitterBuffer.entries := by
    intro e he
    by_cases hmem : e ∈ (s.place frame ⟨sequence, opus⟩).trim.jitterBuffer.entries
    · exact .inr ⟨e.2, hmem⟩
    · exact .inl (trims.gone e he hmem)
  refine ⟨aligned.sound.placed hahead ⟨sequence, opus⟩, aligned.lossless, aligned.few, ?_, ?_,
    fun h => List.mem_append_left _ (aligned.played h), ?_⟩
  · intro e he
    have he := (trimLoop_suffix _ _ _ _).subset he
    rcases SortedMap.mem_insert.mp he with rfl | ⟨he, _⟩
    · exact List.mem_append_right _ (List.mem_singleton.mpr rfl)
    · exact List.mem_append_left _ (aligned.buffered e he)
  · intro seq frame' h
    rcases List.mem_append.mp h with h | h
    · rcases aligned.passed seq frame' h with hlt | ⟨packet, hmem⟩
      · exact .inl (hbehind seq frame' h hlt)
      · exact hkept _ (SortedMap.mem_insert.mpr
          (.inr ⟨hmem, Nat.ne_of_lt (honest.frame_ahead h)⟩))
    · obtain ⟨-, heq⟩ := Prod.mk.inj (List.mem_singleton.mp h)
      obtain rfl := Option.some.inj heq
      exact hkept _ (s.jitterBuffer.mem_insert_self frame' ⟨sequence, opus⟩)
  · intro i j seq frame' seq' hij hi hbase hj
    obtain ⟨hi, hj⟩ := marker_before hij hi hj
    refine aligned.marked i j seq frame' seq' hij hi ?_ hj
    cases hstarted : s.started with
    | true =>
      have hstart : s.core.gapStart = s.lastPlayedFrame := if_pos hstarted
      have hstart' : (s.place frame ⟨sequence, opus⟩).trim.core.gapStart = s.lastPlayedFrame :=
        if_pos hstarted
      rwa [hstart, ← hstart']
    | false =>
      -- a frame at or after the new cursor was not behind the old one
      have hstart : s.core.gapStart = s.nextPlayFrame := by
        simp [Core.gapStart, core, hstarted]
      have hstart' : (s.place frame ⟨sequence, opus⟩).trim.core.gapStart =
          (s.place frame ⟨sequence, opus⟩).trim.nextPlayFrame := by
        simp [Core.gapStart, core, hstarted, trim, place]
      rw [hstart]
      rw [hstart'] at hbase
      refine Nat.not_lt.mp fun hlt => ?_
      exact Nat.not_lt.mpr hbase (hbehind seq frame' (List.mem_of_getElem? hi) hlt)

theorem Core.Aligned.packet {s : UserAudioState} (aligned : s.core.Aligned sent)
    (sequence : UInt32) (timestampUs : Nat) (opus : List UInt8) (arrival : Nat)
    (honest : Honest (sent ++ [(sequence, some (timestampUs / frameUs))])) :
    (s.insertPacketAt sequence timestampUs opus arrival).core.Aligned
      (sent ++ [(sequence, some (timestampUs / frameUs))]) := by
  have hsound := aligned.sound.arrive timestampUs opus arrival
  obtain ⟨target, hcore, _⟩ := s.arrive_core timestampUs opus arrival
  have aligned : (s.arrive timestampUs opus arrival).core.Aligned sent := by
    rw [hcore] at hsound ⊢
    exact { aligned with sound := hsound }
  unfold insertPacketAt
  simp only
  generalize s.arrive timestampUs opus arrival = s at *
  cases hadmitted : s.admission (timestampUs / frameUs) with
  | none =>
    obtain ⟨_, hbehind, hfew, _⟩ := admission_none hadmitted
    exact aligned.late (Nat.le_trans (Nat.min_le_left _ _) hfew) hbehind
  | some s' =>
    obtain ⟨sound', _, hahead⟩ := hsound.admission hadmitted
    refine Core.Aligned.placed ?_ honest hahead opus
    rcases admission_cases hadmitted with ⟨_, rfl⟩ | ⟨_, rfl, _⟩
    · exact aligned.startOver (fun _ _ => honest.frame_ahead) sound'
    · exact { aligned with sound := sound' }

theorem Core.Aligned.endOfStream {s : UserAudioState} (aligned : s.core.Aligned sent)
    (sequence : UInt32) (kept : s.KeepsMarkers (.endOfStream sequence)) :
    (s.markEndOfStream sequence).core.Aligned (sent ++ [(sequence, none)]) := by
  have heos : (s.markEndOfStream sequence).core.eos =
      if sequence ∈ s.pendingEosSeqs then s.pendingEosSeqs
      else (if 8 ≤ s.pendingEosSeqs.length then s.pendingEosSeqs.tail else s.pendingEosSeqs) ++
        [sequence] := rfl
  have hfew : s.pendingEosSeqs.length ≤ 8 := aligned.few
  refine ⟨aligned.sound.step (.endOfStream sequence), aligned.lossless, ?_,
    fun e he => List.mem_append_left _ (aligned.buffered e he), fun seq frame h => ?_,
    fun h => List.mem_append_left _ (aligned.played h), ?_⟩
  · rw [heos]
    split
    · exact hfew
    · split
      · rw [List.length_append, List.length_tail, List.length_singleton]
        omega
      · rw [List.length_append, List.length_singleton]
        omega
  · rcases List.mem_append.mp h with h | h
    · exact aligned.passed seq frame h
    · exact nomatch (Prod.mk.inj (List.mem_singleton.mp h)).2
  · intro i j seq frame seq' hij hi hbase hj
    have hi : sent[i]? = some (seq, some frame) := by
      rcases getElem?_of_append hi with hi | ⟨heq, _⟩
      · exact hi
      · exact nomatch (Prod.mk.inj heq).2
    have hbase : s.core.gapStart ≤ frame := hbase
    rw [heos]
    rcases kept with hroom | ⟨hstopped, hempty⟩
    · -- nothing is forgotten
      rw [if_neg (Nat.not_le.mpr hroom)]
      rcases getElem?_of_append hj with hj | ⟨heq, _⟩
      · have hold := aligned.marked i j seq frame seq' hij hi hbase hj
        split
        · exact hold
        · exact List.mem_append_left _ hold
      · obtain ⟨rfl, _⟩ := Prod.mk.inj heq
        split
        · assumption
        · exact List.mem_append_right _ (List.mem_singleton.mpr rfl)
    · -- every voice packet is behind the cursor
      have hstart : s.core.gapStart = s.core.next := by
        simp [Core.gapStart, core, hstopped]
      rcases aligned.passed seq frame (List.mem_of_getElem? hi) with hlt | ⟨packet, hmem⟩
      · exact absurd hlt (Nat.not_lt.mpr (hstart ▸ hbase))
      · exact absurd hmem (hempty ▸ List.not_mem_nil)

theorem Core.Aligned.tick {s : UserAudioState} (aligned : s.core.Aligned sent)
    (honest : Honest sent) (now : Nat) (codec : Codec) (kept : s.KeepsMarkers (.tick now codec)) :
    (s.decodeNextInto now codec).state.core.Aligned sent := by
  have hsound := aligned.sound.tick now codec
  cases decodeNextInto_ticks aligned.sound now codec with
  | idle hcore _ => exact hcore ▸ aligned
  | played packet hget hcore _ =>
    rw [hcore] at hsound ⊢
    have hmem : (s.nextPlayFrame, packet) ∈ s.jitterBuffer.entries := SortedMap.get?_eq_some.mp hget
    have hsent : (packet.seq, some s.nextPlayFrame) ∈ sent := aligned.buffered _ hmem
    refine ⟨hsound, aligned.lossless, Nat.le_trans (List.length_filter_le _ _) aligned.few,
      fun e he => aligned.buffered e (List.mem_filter.mp he).1, fun seq frame h => ?_,
      fun _ => hsent, fun i j seq frame seq' hij hi hbase hj => ?_⟩
    · rcases aligned.passed seq frame h with hlt | ⟨packet', hmem'⟩
      · exact .inl (Nat.lt_succ_of_lt hlt)
      · by_cases hkey : frame = s.nextPlayFrame
        · exact .inl (hkey ▸ Nat.lt_succ_self _)
        · exact .inr ⟨packet', List.mem_filter.mpr ⟨hmem', decide_eq_true hkey⟩⟩
    · obtain ⟨q, hq⟩ := List.mem_iff_getElem?.mp hsent
      have hqi : q ≤ i := honest.index_le hq hi hbase
      obtain ⟨hpending, hahead⟩ := aligned.marker honest hq (Nat.le_refl s.nextPlayFrame)
        (Nat.lt_of_le_of_lt hqi hij) hj
      exact List.mem_filter.mpr ⟨hpending, hahead⟩
  | concealed hstarted hempty hcore _ =>
    rw [hcore] at hsound ⊢
    refine ⟨hsound, aligned.lossless, aligned.few, aligned.buffered, fun seq frame h => ?_,
      aligned.played, fun i j seq frame seq' hij hi hbase hj => ?_⟩
    · rcases aligned.passed seq frame h with hlt | ⟨packet, hmem⟩
      · exact .inl (Nat.lt_succ_of_lt hlt)
      · exact absurd hmem (hempty ▸ List.not_mem_nil)
    · refine aligned.marked i j seq frame seq' hij hi ?_ hj
      have hstart : s.core.gapStart = s.lastPlayedFrame := if_pos hstarted
      rw [hstart]
      simpa [Core.gapStart, core, hstarted] using hbase
  | silent nextFrame next hstarted hget hafter _ hcore _ =>
    rw [hcore] at hsound ⊢
    have hfirst : s.jitterBuffer.entries.head? = some (nextFrame, next) :=
      (aligned.sound.after_first hget).2 ▸ hafter
    have hmem := List.mem_of_head? hfirst
    have hnext : s.nextPlayFrame ≤ nextFrame := aligned.sound.ahead _ hmem
    obtain ⟨q, hq⟩ := List.mem_iff_getElem?.mp (aligned.buffered _ hmem)
    refine ⟨hsound, aligned.lossless, Nat.zero_le _, aligned.buffered, fun seq frame h => ?_,
      fun h => absurd h Bool.false_ne_true, fun i j seq frame seq' hij hi hbase hj => ?_⟩
    · rcases aligned.passed seq frame h with hlt | hbuffered
      · exact .inl (Nat.lt_of_lt_of_le hlt hnext)
      · exact .inr hbuffered
    · -- an end marker after the new spurt's first packet would be forgotten here
      have hqi : q ≤ i := honest.index_le hq hi hbase
      obtain ⟨hpending, hahead⟩ := aligned.marker honest hq hnext
        (Nat.lt_of_le_of_lt hqi hij) hj
      have hbehind := kept hstarted hget (nextFrame, next) hafter seq' hpending
      exact absurd (hahead.symm.trans hbehind) (by decide)
  | lost nextFrame next hstarted hget hafter hsilence _ _ =>
    exact absurd ((aligned.silence honest hstarted hget hafter).symm.trans hsilence) (by decide)

theorem Core.Aligned.step {s : UserAudioState} (aligned : s.core.Aligned sent) (e : JitterEvent)
    (honest : Honest (sent ++ e.sent)) (kept : s.KeepsMarkers e) :
    (s.step e).core.Aligned (sent ++ e.sent) := by
  cases e with
  | packet sequence timestampUs opus arrival =>
    exact aligned.packet sequence timestampUs opus arrival honest
  | endOfStream sequence => exact aligned.endOfStream sequence kept
  | tick now codec =>
    have hsent : sent ++ (JitterEvent.tick now codec).sent = sent := List.append_nil _
    rw [hsent] at honest ⊢
    exact aligned.tick honest now codec kept

theorem arrivals_concat (es : List JitterEvent) (e : JitterEvent) :
    arrivals (es ++ [e]) = arrivals es ++ e.sent := by
  simp [arrivals]

theorem aligned_run {baseDelay now : Nat} {es : List JitterEvent} (honest : Honest (arrivals es))
    (h : Always UserAudioState.step KeepsMarkers (new baseDelay now) es) :
    ((new baseDelay now).run es).core.Aligned (arrivals es) := by
  induction es using List.reverseRecOn with
  | nil => exact new_aligned baseDelay now
  | append_singleton es e ih =>
    rw [arrivals_concat] at honest ⊢
    rw [run_concat]
    have hbefore := ih (honest.part (List.prefix_append _ _).isInfix) h.of_append
    exact hbefore.step e honest (h.at (List.prefix_refl _))

/-- **Silence is not loss.** In a run of arrivals from an honest sender and ticks, in any order and
at any time, whose every step forgets no end marker that is still ahead, no packet is counted as
lost in any state reached. -/
theorem lossless_run {baseDelay now : Nat} {es : List JitterEvent} (honest : Honest (arrivals es))
    (h : Always UserAudioState.step KeepsMarkers (new baseDelay now) es) {pre : List JitterEvent}
    (hp : pre <+: es) : ((new baseDelay now).run pre).packetsLost = 0 := by
  obtain ⟨rest, rfl⟩ := hp
  have hpre : Honest (arrivals pre) := by
    refine honest.part ?_
    rw [arrivals, arrivals, List.flatMap_append]
    exact (List.prefix_append _ _).isInfix
  exact (aligned_run hpre h.of_append).lossless

/-- Three talk spurts: two frames, then one after a long silence, which is played before the end
marker that follows it comes in, then one after a short silence. -/
def shortSilence : List JitterEvent :=
  [.packet 0 0 [1] 0, .packet 1 20000 [2] 20000000, .tick 20000000 plainCodec,
    .tick 40000000 plainCodec, .endOfStream 2, .packet 3 200000 [3] 200000000,
    .tick 200000000 plainCodec, .endOfStream 4, .packet 5 240000 [4] 240000000,
    .tick 240000000 plainCodec, .tick 260000000 plainCodec]

instance (sent : List (UInt32 × Option Nat)) : Decidable (Honest sent) :=
  decidable_of_iff ((sent.IsChain fun a b => b.1 = a.1 + 1) ∧
      (sent.filterMap (·.2)).Pairwise (· < ·))
    ⟨fun h => ⟨h.1, h.2⟩, fun h => ⟨h.consecutive, h.increasing⟩⟩

theorem lossless_shortSilence : ((new 2 0).run shortSilence).packetsLost = 0 ∧
    ((new 2 0).run shortSilence).nextPlayFrame = 12 := by
  have honest : Honest (arrivals shortSilence) := by decide +kernel
  have kept : Always UserAudioState.step KeepsMarkers (new 2 0) shortSilence := by decide +kernel
  exact ⟨lossless_run honest kept (List.prefix_refl _), by decide +kernel⟩

/-- The same packets in the same order, but the first tick after the long silence comes late. -/
def forgottenMarker : List JitterEvent :=
  [.packet 0 0 [1] 0, .packet 1 20000 [2] 20000000, .tick 20000000 plainCodec,
    .tick 40000000 plainCodec, .endOfStream 2, .packet 3 200000 [3] 200000000, .endOfStream 4,
    .packet 5 240000 [4] 240000000, .tick 240000000 plainCodec, .tick 260000000 plainCodec,
    .tick 280000000 plainCodec]

/-- **Silence is counted as loss.** The tick that jumps over the long silence forgets the end marker
of the spurt that it jumps to. -/
theorem not_lossless : Honest (arrivals forgottenMarker) ∧
    arrivals forgottenMarker = arrivals shortSilence ∧
    ((new 2 0).run forgottenMarker).packetsLost = 1 := by
  refine ⟨?_, rfl, ?_⟩
  · decide +kernel
  · decide +kernel

end UserAudioState

end Rumble.Client.Jitter
