import CydMonitor.Lib.Framing
import CydMonitor.Rust.FrameStream
import CydMonitor.Cpp.FrameStream
import CydMonitor.Codec.Sealing

/-!
# The two framers

Both framers make the same left-to-right scan, whatever the pieces in which the
stream arrives. Log text is skipped byte by byte and never hides a frame.
-/

namespace CydMonitor.Codec

open BigEndian Framing

/-- What the framing rules say about the front of a stream. -/
def frameLook : List UInt8 → Look
  | b0 :: b1 :: rest =>
    let n := value [b0, b1]
    if ¬(5 ≤ n ∧ n ≤ 2046) then .skip
    else if rest.length < n then .wait
    else if (Rust.crc32 (rest.take (n - 4))).toNat = value ((rest.drop (n - 4)).take 4) then
      .take (n + 2)
    else .skip
  | _ => .wait

theorem frameLook_ne_nil {l : List UInt8} (h : frameLook l = .skip) : l ≠ [] := by
  rintro rfl
  cases h

/-- A frame that is taken has a whole length and at least five bytes after it. -/
theorem frameLook_take {l : List UInt8} {n : ℕ} (h : frameLook l = .take n) :
    7 ≤ n ∧ n ≤ 2048 ∧ n ≤ l.length := by
  match l with
  | [] => cases h
  | [b] => cases h
  | b0 :: b1 :: rest =>
    simp only [frameLook] at h
    split_ifs at h with hn hlen hcrc
    cases h
    simp only [List.length_cons]
    omega

/-- A look that has all its bytes does not change when more arrive. -/
theorem frameLook_stable {l : List UInt8} (m : List UInt8) (h : frameLook l ≠ .wait) :
    frameLook (l ++ m) = frameLook l := by
  match l with
  | [] => exact absurd rfl h
  | [b] => exact absurd rfl h
  | b0 :: b1 :: rest =>
    simp only [frameLook, List.cons_append] at h ⊢
    by_cases hn : 5 ≤ value [b0, b1] ∧ value [b0, b1] ≤ 2046
    · by_cases hlen : rest.length < value [b0, b1]
      · simp [hn, hlen] at h
      · have hlen' : ¬(rest ++ m).length < value [b0, b1] := by
          rw [List.length_append]
          omega
        rw [if_neg (not_not.mpr hn), if_neg (not_not.mpr hn), if_neg hlen, if_neg hlen',
          List.take_append_of_le_length (by omega), List.drop_append_of_le_length (by omega),
          List.take_append_of_le_length (by rw [List.length_drop]; omega)]
    · rw [if_pos hn, if_pos hn]

/-- The framing rules shared by both codecs. -/
def frameRule : Rule UInt8 where
  look := frameLook
  skip_ne_nil := frameLook_ne_nil
  take_pos h := by have := frameLook_take h; omega
  take_le h := (frameLook_take h).2.2
  stable := frameLook_stable

/-- The Host framer, as its callers see it. -/
def hostFramer : Framer UInt8 Rust.FrameStream (List UInt8) :=
  ⟨Rust.FrameStream.push, Rust.FrameStream.nextFrame⟩

/-- The device framer, as its callers see it. -/
def deviceFramer : Framer UInt8 Cpp.FrameStream (Except Cpp.Error Cpp.Decoded) :=
  ⟨Cpp.FrameStream.push, Cpp.FrameStream.next⟩

private theorem take_crc {b0 b1 : UInt8} {rest : List UInt8} {n : ℕ} (h5 : 5 ≤ n) :
    ((b0 :: b1 :: rest).drop (n + 2 - 4)).take 4 = (rest.drop (n - 4)).take 4 := by
  obtain ⟨k, rfl⟩ : ∃ k, n = k + 4 := ⟨n - 4, by omega⟩
  rfl

/-- One round of the loop of `next_frame`. -/
theorem scanFrame_eq (d : ℕ) (l : List UInt8) :
    Rust.FrameStream.scanFrame d l = match frameLook l with
      | .skip => Rust.FrameStream.scanFrame (d + 1) l.tail
      | .take n => (some (l.take n), ⟨l.drop n, d⟩)
      | .wait => (none, ⟨l, d⟩) := by
  match l with
  | [] => rfl
  | [b] => rfl
  | b0 :: b1 :: rest =>
    simp only [Rust.FrameStream.scanFrame, frameLook, Rust.maxFrameBytes]
    by_cases hn : 5 ≤ value [b0, b1] ∧ value [b0, b1] ≤ 2046
    · have h5 := hn.1
      have hsub : value [b0, b1] + 2 - 4 - 2 = value [b0, b1] - 4 := by omega
      rw [if_neg (not_not.mpr hn), if_neg (not_not.mpr hn), take_crc h5, hsub]
      simp only [List.length_cons, List.drop_succ_cons, List.drop_zero]
      by_cases hlen : rest.length < value [b0, b1]
      · rw [if_pos (by omega), if_pos hlen]
      · rw [if_neg (by omega), if_neg hlen]
        by_cases hcrc : (Rust.crc32 (rest.take (value [b0, b1] - 4))).toNat =
            value ((rest.drop (value [b0, b1] - 4)).take 4)
        · rw [if_neg (not_not.mpr hcrc), if_pos hcrc]
          simp only [List.drop_succ_cons]
        · rw [if_pos hcrc, if_neg hcrc]
          rfl
    · rw [if_pos hn, if_pos hn]
      rfl

/-- One round of the loop of `Next`. -/
theorem scanNext_eq (d : ℕ) (l : List UInt8) :
    Cpp.FrameStream.scanNext d l = match frameLook l with
      | .skip => Cpp.FrameStream.scanNext (d + 1) l.tail
      | .take n => (some (Cpp.decode (l.take n)), ⟨l.drop n, d⟩)
      | .wait => (none, ⟨l, d⟩) := by
  match l with
  | [] => rfl
  | [b] => rfl
  | b0 :: b1 :: rest =>
    rw [Cpp.FrameStream.scanNext, frameLook]
    simp only [Cpp.kMaxFrameBytes]
    by_cases hn : 5 ≤ value [b0, b1] ∧ value [b0, b1] ≤ 2046
    · have hn' : ¬(value [b0, b1] < 5 ∨ value [b0, b1] > 2048 - 2) := by omega
      rw [if_neg hn', if_neg (not_not.mpr hn)]
      by_cases hlen : rest.length < value [b0, b1]
      · rw [if_pos (by simp only [List.length_cons]; omega), if_pos hlen]
      · have hframe : ((b0 :: b1 :: rest).take (value [b0, b1] + 2)).length =
            value [b0, b1] + 2 :=
          List.length_take_of_le (by simp only [List.length_cons]; omega)
        have hbody : (((b0 :: b1 :: rest).take (value [b0, b1] + 2)).drop 2).take
            (value [b0, b1] - 4) = rest.take (value [b0, b1] - 4) := by
          rw [List.take_succ_cons, List.take_succ_cons, List.drop_succ_cons,
            List.drop_succ_cons, List.drop_zero, List.take_take, Nat.min_eq_left (by omega)]
        have hend : ((b0 :: b1 :: rest).take (value [b0, b1] + 2)).drop
            (value [b0, b1] + 2 - 4) = (rest.drop (value [b0, b1] - 4)).take 4 := by
          rw [List.drop_take, ← take_crc hn.1]
          congr 1
          omega
        rw [if_neg (by simp only [List.length_cons]; omega), if_neg hlen, hframe, hbody, hend,
          crc32_eq]
        by_cases hcrc : (Rust.crc32 (rest.take (value [b0, b1] - 4))).toNat =
            value ((rest.drop (value [b0, b1] - 4)).take 4)
        · rw [if_neg (not_not.mpr hcrc), if_pos hcrc]
        · rw [if_pos hcrc, if_neg hcrc]
          rfl
    · have hn' : value [b0, b1] < 5 ∨ value [b0, b1] > 2048 - 2 := by omega
      rw [if_pos hn', if_pos hn]
      rfl

/-- The Host framer makes the scan of the framing rules. -/
theorem hostFramer_follows :
    hostFramer.Follows frameRule id Rust.FrameStream.buffer Rust.FrameStream.droppedBytes := by
  have hloop := Framer.loop_steps frameRule id Rust.FrameStream.buffer
    Rust.FrameStream.droppedBytes (fun l d => ⟨l, d⟩) (fun _ _ => rfl) (fun _ _ => rfl) scanFrame_eq
  exact ⟨fun _ _ => rfl, fun _ _ => rfl, fun s => (hloop s.droppedBytes s.buffer).1,
    fun s => (hloop s.droppedBytes s.buffer).2⟩

/-- The device framer makes the same scan and decodes each frame. -/
theorem deviceFramer_follows :
    deviceFramer.Follows frameRule Cpp.decode Cpp.FrameStream.buffer
      Cpp.FrameStream.droppedBytes := by
  have hloop := Framer.loop_steps frameRule Cpp.decode Cpp.FrameStream.buffer
    Cpp.FrameStream.droppedBytes (fun l d => ⟨l, d⟩) (fun _ _ => rfl) (fun _ _ => rfl) scanNext_eq
  exact ⟨fun _ _ => rfl, fun _ _ => rfl, fun s => (hloop s.droppedBytes s.buffer).1,
    fun s => (hloop s.droppedBytes s.buffer).2⟩

/-- Where the rules wait, less than a frame is buffered. -/
theorem length_lt_of_wait {l : List UInt8} (h : frameLook l = .wait) : l.length < 2048 := by
  match l with
  | [] => simp
  | [b] => simp
  | b0 :: b1 :: rest =>
    simp only [frameLook] at h
    split_ifs at h with hn hlen
    simp only [List.length_cons]
    omega

/-- A framer specification: in whatever chunks a stream arrives, and however often
frames are taken in between, a framer returns the frames of one greedy scan of the
whole stream, accounts for every byte, and keeps less than a frame once drained. -/
def ScansGreedily {σ ρ : Type} (F : Framer UInt8 σ ρ) (view : List UInt8 → ρ)
    (buffer : σ → List UInt8) (dropped : σ → ℕ) (start : σ) : Prop :=
  ∀ uses : List (Use UInt8),
    let r := F.run start uses
    let t := F.drain ((buffer r.2).length + 1) r.2
    ((F.next r.2).1 = none → (buffer (F.next r.2).2).length < 2048) ∧
      (F.next t.2).1 = none ∧ (buffer t.2).length < 2048 ∧
      ∃ fs gs, r.1 = fs.map view ∧ t.1 = gs.map view ∧
        (∀ frames n rest, Greedy frameRule (pushed uses) frames n rest ↔
          frames = fs ++ gs ∧ n = dropped t.2 ∧ rest = buffer t.2) ∧
        fs.flatten.length + dropped r.2 + (buffer r.2).length = (pushed uses).length ∧
        (fs ++ gs).flatten.length + dropped t.2 + (buffer t.2).length = (pushed uses).length

theorem scansGreedily_of_follows {σ ρ : Type} {F : Framer UInt8 σ ρ} {view : List UInt8 → ρ}
    {buffer : σ → List UInt8} {dropped : σ → ℕ} (h : F.Follows frameRule view buffer dropped)
    {start : σ} (hbuffer : buffer start = []) (hdropped : dropped start = 0) :
    ScansGreedily F view buffer dropped start := by
  intro uses r t
  have hstart : Steps frameRule [] [] (dropped start) (buffer start) := by
    rw [hbuffer, hdropped]
    exact .done []
  obtain ⟨fs, hr, hsteps⟩ := h.run_steps uses hstart
  simp only [List.nil_append] at hsteps
  obtain ⟨gs, ht, hgreedy⟩ := h.drain_greedy (Nat.lt_succ_self _) hsteps
  refine ⟨fun hnone => length_lt_of_wait (h.next_none r.2 hnone), h.next_of_wait hgreedy.2,
    length_lt_of_wait hgreedy.2, fs, gs, hr, ht, ?_, hsteps.length_eq, hgreedy.1.length_eq⟩
  intro frames n rest
  constructor
  · intro hscan
    exact hscan.unique hgreedy
  · rintro ⟨rfl, rfl, rfl⟩
    exact hgreedy

/-- Both framers make the greedy scan of every stream, however it is split. -/
theorem framers_scan_greedily :
    ScansGreedily hostFramer id Rust.FrameStream.buffer Rust.FrameStream.droppedBytes {} ∧
      ScansGreedily deviceFramer Cpp.decode Cpp.FrameStream.buffer Cpp.FrameStream.droppedBytes
        {} :=
  ⟨scansGreedily_of_follows hostFramer_follows rfl rfl,
    scansGreedily_of_follows deviceFramer_follows rfl rfl⟩

/-- A whole frame: a payload between its length and its CRC. -/
def IntactFrame (f : List UInt8) : Prop :=
  ∃ c, f = Rust.sealFrame c ∧ 5 ≤ c.length + 4 ∧ c.length + 4 ≤ 2046

/-- A frame at the front of a stream is taken whole. -/
theorem frameLook_intact {f : List UInt8} (hf : IntactFrame f) (rest : List UInt8) :
    frameLook (f ++ rest) = .take f.length := by
  obtain ⟨c, rfl, h1, h2⟩ := hf
  have hvalue := value_bytes (n := 2) (v := c.length + 4) (by omega)
  obtain ⟨b0, b1, hb⟩ : ∃ b0 b1, bytes 2 (c.length + 4) = [b0, b1] := ⟨_, _, rfl⟩
  have hcrc := value_bytes (n := 4) (v := (Rust.crc32 c).toNat)
    (by have := (Rust.crc32 c).toNat_lt; omega)
  have hlen := length_bytes 4 (Rust.crc32 c).toNat
  rw [hb] at hvalue
  rw [length_sealFrame, Rust.sealFrame, hb]
  simp only [List.cons_append, List.nil_append, List.append_assoc, frameLook, hvalue]
  rw [if_neg (by omega), if_neg (by simp only [List.length_append, hlen]; omega),
    Nat.add_sub_cancel, List.take_left, List.drop_left, List.take_left' hlen, hcrc, if_pos rfl]

/-- A log byte is never the first byte of a length. -/
theorem frameLook_log {b : UInt8} (hb : 8 ≤ b.toNat) {l : List UInt8} (hl : l ≠ []) :
    frameLook (b :: l) = .skip := by
  cases l with
  | nil => exact absurd rfl hl
  | cons b1 rest =>
    have hvalue : value [b, b1] = b.toNat * 256 + b1.toNat := by simp [value]
    rw [frameLook]
    simp only [hvalue]
    rw [if_pos (by omega)]

/-- Log bytes in front of more bytes are skipped one by one. -/
theorem steps_log {noise l : List UInt8} (hnoise : ∀ b ∈ noise, 8 ≤ b.toNat) (hl : l ≠ []) :
    Steps frameRule (noise ++ l) [] noise.length l := by
  apply Steps.skips
  rintro t m rfl hm
  cases m with
  | nil => exact absurd rfl hm
  | cons b m =>
    apply frameLook_log
    · exact hnoise b (by simp)
    · simp [hl]

/-- The scan of frames with log text before each of them. -/
theorem steps_frames {parts : List (List UInt8 × List UInt8)}
    (hlog : ∀ p ∈ parts, ∀ b ∈ p.1, 8 ≤ b.toNat) (hframes : ∀ p ∈ parts, IntactFrame p.2)
    (l : List UInt8) :
    Steps frameRule ((parts.flatMap fun p => p.1 ++ p.2) ++ l) (parts.map Prod.snd)
      (parts.map (·.1.length)).sum l := by
  induction parts with
  | nil => exact .done l
  | cons p parts ih =>
    have hp := hframes p List.mem_cons_self
    have htail := ih (fun q hq => hlog q (List.mem_cons_of_mem p hq))
      fun q hq => hframes q (List.mem_cons_of_mem p hq)
    have hframe : Steps frameRule (p.2 ++ ((parts.flatMap fun p => p.1 ++ p.2) ++ l))
        (p.2 :: parts.map Prod.snd) (parts.map (·.1.length)).sum l :=
      .take (frameLook_intact hp _) htail
    have hne : p.2 ++ ((parts.flatMap fun p => p.1 ++ p.2) ++ l) ≠ [] := by
      obtain ⟨c, hc, -⟩ := hp
      have hlen := length_sealFrame c
      intro hnil
      rw [(List.append_eq_nil_iff.mp hnil).1.symm.trans hc |>.symm] at hlen
      simp at hlen
    have hwhole := (steps_log (hlog p List.mem_cons_self) hne).trans hframe
    simpa [List.append_assoc] using hwhole

/-- The log text that follows the last frame: all but its last byte is skipped. -/
theorem greedy_tail {tail : List UInt8} (htail : ∀ b ∈ tail, 8 ≤ b.toNat) :
    Greedy frameRule tail [] (tail.length - 1) (tail.drop (tail.length - 1)) := by
  cases h : tail.getLast? with
  | none =>
    rw [List.getLast?_eq_none_iff.mp h]
    exact ⟨.done [], rfl⟩
  | some b =>
    obtain ⟨front, rfl⟩ := List.getLast?_eq_some_iff.mp h
    have hfront : ∀ x ∈ front, 8 ≤ x.toNat := fun x hx => htail x (by simp [hx])
    have hsteps := steps_log hfront (List.cons_ne_nil b [])
    have hgreedy : Greedy frameRule (front ++ [b]) [] front.length [b] := ⟨hsteps, rfl⟩
    simpa using hgreedy

/-- Log text never hides a frame: of frames with log text between them the Host
framer returns exactly the frames, drops exactly the log bytes, and keeps at most
the last of them. -/
theorem log_text_hides_no_frame (parts : List (List UInt8 × List UInt8)) (tail : List UInt8)
    (hlog : ∀ p ∈ parts, ∀ b ∈ p.1, 8 ≤ b.toNat) (hframes : ∀ p ∈ parts, IntactFrame p.2)
    (htail : ∀ b ∈ tail, 8 ≤ b.toNat) (uses : List (Use UInt8))
    (huses : pushed uses = (parts.flatMap fun p => p.1 ++ p.2) ++ tail) :
    let r := hostFramer.run {} uses
    let t := hostFramer.drain (r.2.buffer.length + 1) r.2
    r.1 ++ t.1 = parts.map Prod.snd ∧ t.2.buffer = tail.drop (tail.length - 1) ∧
      t.2.droppedBytes = (parts.map (·.1.length)).sum + (tail.length - 1) := by
  intro r t
  have hspec : ScansGreedily hostFramer id Rust.FrameStream.buffer
      Rust.FrameStream.droppedBytes {} := scansGreedily_of_follows hostFramer_follows rfl rfl
  obtain ⟨-, -, -, fs, gs, hr, ht, hscan, -⟩ := hspec uses
  rw [List.map_id] at hr ht
  have htailScan := greedy_tail htail
  have hgreedy : Greedy frameRule (pushed uses) (parts.map Prod.snd)
      ((parts.map (·.1.length)).sum + (tail.length - 1)) (tail.drop (tail.length - 1)) := by
    rw [huses]
    have hsteps := (steps_frames hlog hframes tail).trans htailScan.1
    rw [List.append_nil] at hsteps
    exact ⟨hsteps, htailScan.2⟩
  obtain ⟨hframes, hdropped, hrest⟩ := (hscan _ _ _).mp hgreedy
  exact ⟨by rw [hframes, ← hr, ← ht], hrest.symm, hdropped.symm⟩

/-- Two frames in three pieces, with log text before and after the first one. -/
theorem log_text_hides_no_frame_example :
    let uses : List (Use UInt8) := [.push (0x4c :: (Rust.sealFrame [0xa0]).take 3), .next,
      .push ((Rust.sealFrame [0xa0]).drop 3 ++ [0x0d, 0x0a] ++ Rust.sealFrame [0x01]), .next,
      .push [0x0a]]
    let r := hostFramer.run {} uses
    let t := hostFramer.drain (r.2.buffer.length + 1) r.2
    r.1 ++ t.1 = [Rust.sealFrame [0xa0], Rust.sealFrame [0x01]] ∧ t.2.buffer = [0x0a] ∧
      t.2.droppedBytes = 3 :=
  log_text_hides_no_frame
    [([0x4c], Rust.sealFrame [0xa0]), ([0x0d, 0x0a], Rust.sealFrame [0x01])] [0x0a]
    (by simp) (by
      intro p hp
      rcases List.mem_pair.mp hp with rfl | rfl
      · exact ⟨[0xa0], rfl, by decide, by decide⟩
      · exact ⟨[0x01], rfl, by decide, by decide⟩) (by simp) _ (by decide)

end CydMonitor.Codec
