-- SUMMARY: recv against any peer: how many frames it takes, how much it holds, and what it returns.
import Ipgate.Agent.Noise

/-!
# Receiving from any peer

A peer chooses the size of every frame, and need not stop. Each frame has to bring a byte,
and the header says how many are needed, up to a limit, so the loop of `recv` ends. Here
its turns are taken with the bounds that each operation on its buffers has.
-/

namespace Ipgate.Noise

open Bytes

/-! ## Operations with their bounds -/

/-- The first `n` bytes of a vector that has them. -/
def sliceTo (n : Nat) (v : List UInt8) : Option (List UInt8) := if n ≤ v.length then some (v.take n) else none

/-- The vector without its first `n` bytes. -/
def drainTo (n : Nat) (v : List UInt8) : Option (List UInt8) := if n ≤ v.length then some (v.drop n) else none

/-- The vector cut to `n` bytes, which it has. -/
def truncate (n : Nat) (v : List UInt8) : Option (List UInt8) := if n ≤ v.length then some (v.take n) else none

/-- A frame that was read and decrypted: its size, and the plaintext, which is in front in a
buffer of that size. -/
structure Opened where
  size : Nat
  plaintext : List UInt8

def Opened.buf (f : Opened) : List UInt8 :=
  (f.plaintext ++ List.replicate (f.size - f.plaintext.length) 0).take f.size

/-- The plaintext is as long as one in a frame can be, and fits the buffer. -/
structure Opened.Fits (f : Opened) : Prop where
  frame : f.plaintext.length ≤ noiseMaxFrame
  size : f.plaintext.length ≤ f.size

/-- The end of a turn. -/
def finishIn (len : Nat) (out : List UInt8) : Option Fed :=
  if len ≤ out.length then (truncate len out).map .message else some (.more ⟨some len, out⟩)

/-- A turn of the loop of `recv`, and nothing where an operation is out of bounds. -/
def turn (b : Buffered) (f : Opened) : Option (Except String Fed) :=
  let n := f.plaintext.length
  if n = 0 then some (.error "收到空明文 Noise 帧")
  else do
    let buf ← truncate n f.buf
    let out := b.out ++ buf
    match b.total with
    | some len => (finishIn len out).map .ok
    | none =>
      if out.length < 4 then some (.ok (.more ⟨none, out⟩))
      else do
        let head ← sliceTo 4 out
        let len := fromBe head
        if noiseMaxMsg < len then
          some (.error s!"Noise 逻辑消息过大：{len} 字节 > 上限 {noiseMaxMsg}")
        else do
          let out ← drainTo 4 out
          (finishIn len out).map .ok

/-! ## Any peer -/

/-- The frames of a peer, each as it arrives, or why it does not. -/
abbrev Peer := ℕ → Except String Opened

/-- How far `recv` has come. -/
inductive Progress where
  | waiting (b : Buffered)
  | done (r : Except String (List UInt8))
  | outOfBounds

def Progress.next (p : Progress) (arrived : Except String Opened) : Progress :=
  match p, arrived with
  | .waiting _, .error e => .done (.error e)
  | .waiting b, .ok f =>
    match turn b f with
    | none => .outOfBounds
    | some (.error e) => .done (.error e)
    | some (.ok (.message m)) => .done (.ok m)
    | some (.ok (.more b')) => .waiting b'
  | .done r, _ => .done r
  | .outOfBounds, _ => .outOfBounds

/-- What has become of `recv` when `k` frames have arrived. -/
def Progress.after (p : Progress) (peer : Peer) : ℕ → Progress
  | 0 => p
  | k + 1 => (p.after peer k).next (peer k)

/-- `recv` before any frame. -/
def Progress.start : Progress := .waiting ⟨none, []⟩

/-- The plaintexts of the first `k` frames, one behind the other. -/
def received (peer : Peer) : ℕ → List UInt8
  | 0 => []
  | k + 1 =>
    match peer k with
    | .ok f => received peer k ++ f.plaintext
    | .error _ => received peer k

/-! ## A turn stays in its bounds -/

section Turn

variable {b b' : Buffered} {f : Opened} {len : Nat} {out : List UInt8}

theorem truncate_of_le {n : Nat} {v : List UInt8} (h : n ≤ v.length) : truncate n v = some (v.take n) := if_pos h

theorem finishIn_eq : finishIn len out = some (finish len out) := by
  unfold finishIn finish
  split
  · next hle => rw [truncate_of_le hle, Option.map_some]
  · rfl

theorem truncate_buf (h : f.plaintext.length ≤ f.size) : truncate f.plaintext.length f.buf = some f.plaintext := by
  have hlen : f.buf.length = f.size := by
    unfold Opened.buf
    rw [List.length_take, List.length_append, List.length_replicate]
    omega
  rw [truncate_of_le (by omega)]
  unfold Opened.buf
  rw [List.take_take, Nat.min_eq_left h, List.take_left]

/-- No operation of a turn is out of bounds, and what it does is what the plaintext does. -/
theorem turn_eq (h : f.plaintext.length ≤ f.size) : turn b f = some (b.feed f.plaintext) := by
  unfold turn Buffered.feed
  dsimp only
  split
  · rfl
  · rw [truncate_buf h, Option.bind_eq_bind, Option.bind_some]
    cases b.total with
    | some len =>
      dsimp only
      rw [finishIn_eq]
      rfl
    | none =>
      dsimp only
      split
      · rfl
      · next hfour =>
        have hhead : sliceTo 4 (b.out ++ f.plaintext) = some ((b.out ++ f.plaintext).take 4) :=
          if_pos (Nat.not_lt.mp hfour)
        have hdrain : drainTo 4 (b.out ++ f.plaintext) = some ((b.out ++ f.plaintext).drop 4) :=
          if_pos (Nat.not_lt.mp hfour)
        rw [hhead, Option.bind_some]
        split
        · rfl
        · rw [hdrain, Option.bind_some, finishIn_eq]
          rfl

/-- Less than a header has come, or less than a message within the limit. -/
def Buffered.Short (b : Buffered) : Prop :=
  match b.total with
  | none => b.out.length < 4
  | some len => b.out.length < len ∧ len ≤ noiseMaxMsg

theorem Buffered.Short.length (h : b.Short) : b.out.length ≤ noiseMaxMsg := by
  unfold Buffered.Short at h
  split at h
  · have hfour : 4 ≤ noiseMaxMsg := by decide
    omega
  · omega

theorem finish_short (hmax : len ≤ noiseMaxMsg) (h : finish len out = .more b') : b'.Short := by
  unfold finish at h
  split at h
  · cases h
  · next hlen =>
    cases h
    exact ⟨Nat.not_le.mp hlen, hmax⟩

/-- What a turn leaves to be waited for is short. -/
theorem feed_short {p : List UInt8} (hb : b.Short) (h : b.feed p = .ok (.more b')) : b'.Short := by
  unfold Buffered.feed at h
  unfold Buffered.Short at hb
  split at h
  · cases h
  · dsimp only at h
    cases htotal : b.total with
    | some len =>
      rw [htotal] at h hb
      exact finish_short hb.2 (Except.ok.inj h)
    | none =>
      rw [htotal] at h
      dsimp only at h
      split at h
      · next hfour =>
        cases h
        exact hfour
      · split at h
        · cases h
        · next hmax => exact finish_short (Nat.not_lt.mp hmax) (Except.ok.inj h)

end Turn

/-! ## The loop -/

section Loop

variable {peer : Peer} {k n : ℕ} {b : Buffered} {m : List UInt8} {p : Progress} {r : Except String (List UInt8)}

/-- What holds while `recv` waits: every frame brought a byte, the bytes so far say nothing yet,
and the buffer is what they leave to be decoded. -/
structure Waits (peer : Peer) (k : ℕ) (b : Buffered) : Prop where
  count : k ≤ (received peer k).length
  silent : decode (received peer k) = none
  left : ∀ xs, b.decode xs = decode (received peer k ++ xs)
  short : b.Short

/-- What holds whenever `recv` is looked at. -/
inductive Safe (peer : Peer) (k : ℕ) : Progress → Prop where
  | waiting {b : Buffered} (h : Waits peer k b) : Safe peer k (.waiting b)
  | failed (e : String) : Safe peer k (.done (.error e))
  | message {m : List UInt8} (hlen : m.length ≤ noiseMaxMsg) (hpre : encode m <+: received peer k) :
    Safe peer k (.done (.ok m))

theorem received_prefix : received peer k <+: received peer (k + 1) := by
  rw [received]
  split
  · exact List.prefix_append _ _
  · exact List.prefix_rfl

theorem safe_start : Safe peer 0 .start := by
  have hshort : Buffered.Short ⟨none, []⟩ := Nat.zero_lt_succ 3
  exact .waiting ⟨Nat.zero_le 0, rfl, fun _ => rfl, hshort⟩

/-- A turn keeps what holds. -/
theorem safe_next (hpeer : ∀ f, peer k = .ok f → f.Fits) (h : Safe peer k p) : Safe peer (k + 1) (p.next (peer k)) := by
  cases h with
  | failed e => exact .failed e
  | message hlen hpre => exact .message hlen (hpre.trans received_prefix)
  | @waiting b hwaits =>
    cases harrived : peer k with
    | error e => exact .failed e
    | ok f =>
      have hreceived : received peer (k + 1) = received peer k ++ f.plaintext := by rw [received, harrived]
      unfold Progress.next
      dsimp only
      rw [turn_eq (hpeer f harrived).size]
      by_cases hempty : f.plaintext = []
      · have hfeed : b.feed f.plaintext = .error "收到空明文 Noise 帧" := by simp [Buffered.feed, hempty]
        rw [hfeed]
        exact .failed _
      -- what has arrived, then a turn: `feed_says` for the frame at hand
      · have hsays := b.feed_says hempty
        have hpos : 0 < f.plaintext.length := List.length_pos_iff.mpr hempty
        cases hfeed : b.feed f.plaintext with
        | error e => exact .failed e
        | ok fed =>
          rw [hfeed] at hsays
          cases fed with
          | message m =>
            obtain ⟨extra, hextra⟩ := hsays
            have hsaid : b.decode (f.plaintext ++ []) = some (.ok (m, extra ++ [])) := hextra []
            rw [hwaits.left, List.append_nil, ← hreceived] at hsaid
            obtain ⟨hlen, heq⟩ := decode_eq_ok hsaid
            exact .message hlen ⟨_, heq.symm⟩
          | more b' =>
            obtain ⟨hnone, hsame⟩ := hsays
            have hleft (xs : List UInt8) : b'.decode xs = decode (received peer (k + 1) ++ xs) := by
              have heq : b'.decode xs = b.decode (f.plaintext ++ xs) := hsame xs
              rw [heq, hwaits.left, hreceived, List.append_assoc]
            refine .waiting ⟨?_, ?_, hleft, feed_short hwaits.short hfeed⟩
            · rw [hreceived, List.length_append]
              have hcount := hwaits.count
              omega
            · rw [← List.append_nil (received peer (k + 1)), ← hleft]
              exact hnone

theorem safe_after (hpeer : ∀ k f, peer k = .ok f → f.Fits) (k : ℕ) : Safe peer k (Progress.start.after peer k) := by
  induction k with
  | zero => exact safe_start
  | succ k ih => exact safe_next (hpeer k) ih

/-- It does not wait for another frame when as many have come as a message has bytes at most. -/
theorem returned (hpeer : ∀ k f, peer k = .ok f → f.Fits) :
    ∃ r, Progress.start.after peer (noiseMaxMsg + 4) = .done r := by
  have hsafe := safe_after hpeer (noiseMaxMsg + 4)
  generalize Progress.start.after peer (noiseMaxMsg + 4) = p at hsafe
  cases hsafe with
  | waiting h =>
    have hcount := h.count
    have hfew := decode_eq_none h.silent
    omega
  | failed e => exact ⟨_, rfl⟩
  | message hlen hpre => exact ⟨_, rfl⟩

theorem not_outOfBounds (hpeer : ∀ k f, peer k = .ok f → f.Fits) (k : ℕ) :
    Progress.start.after peer k ≠ .outOfBounds := by
  intro h
  have hsafe := safe_after hpeer k
  rw [h] at hsafe
  cases hsafe

/-- The buffer is longest with a frame behind what was waited for. -/
theorem buffer_length (hpeer : ∀ k f, peer k = .ok f → f.Fits) {f : Opened}
    (hwaiting : Progress.start.after peer k = .waiting b) (hf : peer k = .ok f) :
    (b.out ++ f.plaintext).length ≤ noiseMaxMsg + noiseMaxFrame := by
  have hsafe := safe_after hpeer k
  rw [hwaiting] at hsafe
  cases hsafe with
  | waiting h =>
    rw [List.length_append]
    exact Nat.add_le_add h.short.length (hpeer k f hf).frame

theorem message_received (hpeer : ∀ k f, peer k = .ok f → f.Fits)
    (hdone : Progress.start.after peer k = .done (.ok m)) :
    m.length ≤ noiseMaxMsg ∧ encode m <+: received peer k := by
  have hsafe := safe_after hpeer k
  rw [hdone] at hsafe
  cases hsafe with
  | message hlen hpre => exact ⟨hlen, hpre⟩

/-- What `recv` has returned stays. -/
theorem after_done (h : p.after peer k = .done r) (hle : k ≤ n) : p.after peer n = .done r := by
  induction hle with
  | refl => exact h
  | step _ ih => rw [Progress.after, ih]; rfl

end Loop

/-! ## The loop on a connection -/

section Connection

variable {T : Transport}

/-- The next frame of a connection. -/
def NoiseConn.readNext (T : Transport) (c : NoiseConn) : Except String (Opened × NoiseConn) :=
  match readFrame c.stream with
  | .error e => .error e
  | .ok (frame, rest) =>
    match T.readMessage c.receiving frame with
    | .error e => .error ("Noise 解密失败：" ++ e)
    | .ok buf => .ok (⟨frame.length, buf⟩, { c with stream := rest, receiving := c.receiving + 1 })

/-- The peer at the other end of a connection. -/
def NoiseConn.peer (T : Transport) (c : NoiseConn) : Peer
  | 0 => (c.readNext T).map Prod.fst
  | k + 1 =>
    match c.readNext T with
    | .error e => .error e
    | .ok (_, c') => c'.peer T k

theorem Progress.after_succ (p : Progress) (peer : Peer) (k : ℕ) :
    p.after peer (k + 1) = (p.next (peer 0)).after (fun i => peer (i + 1)) k := by
  induction k with
  | zero => rfl
  | succ k ih => rw [after, ih]; rfl

variable {b : Buffered} {c c' : NoiseConn} {f : Opened} {frame rest buf : List UInt8}

theorem readNext_ok (hread : readFrame c.stream = .ok (frame, rest)) (hopen : T.readMessage c.receiving frame = .ok buf) :
    c.readNext T = .ok (⟨frame.length, buf⟩, { c with stream := rest, receiving := c.receiving + 1 }) := by
  unfold NoiseConn.readNext
  rw [hread]
  dsimp only
  rw [hopen]

/-- The turn for a frame that arrives on a connection. -/
theorem next_peer (hT : ∀ i c p, T.readMessage i c = .ok p → p.length ≤ c.length)
    (hread : readFrame c.stream = .ok (frame, rest)) (hopen : T.readMessage c.receiving frame = .ok buf) :
    (Progress.waiting b).next (c.peer T 0) =
      match b.feed buf with
      | .error e => .done (.error e)
      | .ok (.message m) => .done (.ok m)
      | .ok (.more b') => .waiting b' := by
  have hturn : turn b ⟨frame.length, buf⟩ = some (b.feed buf) := turn_eq (hT _ _ _ hopen)
  unfold NoiseConn.peer Progress.next
  rw [readNext_ok hread hopen]
  dsimp only [Except.map]
  rw [hturn]
  cases b.feed buf with
  | error e => rfl
  | ok fed => cases fed <;> rfl

/-- On a connection the loop comes to what `recv` returns, where the library writes no more than
the size of a frame. -/
theorem recvLoop_after (hT : ∀ i c p, T.readMessage i c = .ok p → p.length ≤ c.length) (b : Buffered) (c : NoiseConn) :
    ∃ k, (Progress.waiting b).after (c.peer T) k = .done ((c.recvLoop T b).map Prod.fst) := by
  fun_induction NoiseConn.recvLoop T b c with
  | case1 b c e hread =>
    have hnext : c.readNext T = .error e := by
      unfold NoiseConn.readNext
      rw [hread]
    refine ⟨1, ?_⟩
    show (Progress.waiting b).next (c.peer T 0) = _
    unfold NoiseConn.peer
    rw [hnext]
    rfl
  | case2 b c frame rest hread e hopen =>
    have hnext : c.readNext T = .error ("Noise 解密失败：" ++ e) := by
      unfold NoiseConn.readNext
      rw [hread]
      dsimp only
      rw [hopen]
    refine ⟨1, ?_⟩
    show (Progress.waiting b).next (c.peer T 0) = _
    unfold NoiseConn.peer
    rw [hnext]
    rfl
  | case3 b c frame rest hread buf hopen e hfeed =>
    refine ⟨1, ?_⟩
    show (Progress.waiting b).next (c.peer T 0) = _
    rw [next_peer hT hread hopen, hfeed]
    rfl
  | case4 b c frame rest hread buf hopen m hfeed =>
    refine ⟨1, ?_⟩
    show (Progress.waiting b).next (c.peer T 0) = _
    rw [next_peer hT hread hopen, hfeed]
    rfl
  | case5 b c frame rest hread buf hopen b' hfeed ih =>
    -- one turn more than the rest of the loop takes
    obtain ⟨k, hk⟩ := ih
    refine ⟨k + 1, ?_⟩
    have hpeer : (fun i => c.peer T (i + 1)) =
        NoiseConn.peer T { c with stream := rest, receiving := c.receiving + 1 } := by
      funext i
      rw [NoiseConn.peer, readNext_ok hread hopen]
    rw [Progress.after_succ, next_peer hT hread hopen, hfeed, hpeer]
    exact hk

/-- On a connection `recv` is the loop with the peer at the other end. -/
theorem recv_after (hT : ∀ i c p, T.readMessage i c = .ok p → p.length ≤ c.length) (c : NoiseConn) :
    ∃ k, Progress.start.after (c.peer T) k = .done ((c.recv T).map Prod.fst) := recvLoop_after hT _ c

theorem length_frame_lt (h : readFrame c.stream = .ok (frame, rest)) : frame.length < 65536 := by
  have hhead : fromBe (c.stream.take 2) < 65536 :=
    Nat.lt_of_lt_of_le (fromBe_lt_pow _) (Nat.pow_le_pow_right (by decide) (List.length_take_le 2 _))
  unfold readFrame at h
  split at h
  · cases h
  · dsimp only at h
    split at h
    · cases h
    · split at h
      · cases h
      · cases h
        exact Nat.lt_of_le_of_lt (List.length_take_le _ _) hhead

/-- A plaintext that is 16 bytes shorter than its frame fits. -/
theorem fits_readNext (hT : ∀ i c p, T.readMessage i c = .ok p → p.length + 16 ≤ c.length)
    (h : c.readNext T = .ok (f, c')) : f.Fits := by
  unfold NoiseConn.readNext at h
  split at h
  · cases h
  · next frame rest hread =>
    split at h
    · cases h
    · next buf hopen =>
      cases h
      have hframe := length_frame_lt hread
      have hshorter := hT _ _ _ hopen
      have hmax : noiseMaxFrame + 16 = 65535 := rfl
      exact ⟨by dsimp only; omega, by dsimp only; omega⟩

theorem fits_peer (hT : ∀ i c p, T.readMessage i c = .ok p → p.length + 16 ≤ c.length) (c : NoiseConn) (k : ℕ) :
    ∀ f, c.peer T k = .ok f → f.Fits := by
  induction k generalizing c with
  | zero =>
    intro f hf
    unfold NoiseConn.peer at hf
    cases hnext : c.readNext T with
    | error e =>
      rw [hnext] at hf
      cases hf
    | ok next =>
      rw [hnext] at hf
      cases hf
      exact fits_readNext hT hnext
  | succ k ih =>
    intro f hf
    unfold NoiseConn.peer at hf
    split at hf
    · cases hf
    · exact ih _ f hf

/-- On a connection `recv` takes no more frames than the longest message and its header have
bytes, and what it returns is what the loop comes to. -/
theorem recv_returned (hT : ∀ i c p, T.readMessage i c = .ok p → p.length + 16 ≤ c.length) (c : NoiseConn) :
    ∃ k ≤ noiseMaxMsg + 4, Progress.start.after (c.peer T) k = .done ((c.recv T).map Prod.fst) := by
  obtain ⟨k, hk⟩ := recv_after (fun i c p h => Nat.le_trans (Nat.le_add_right ..) (hT i c p h)) c
  obtain ⟨r, hr⟩ := returned (fits_peer hT c)
  rcases Nat.le_total k (noiseMaxMsg + 4) with hle | hge
  · exact ⟨k, hle, hk⟩
  · rw [after_done hr hge] at hk
    exact ⟨noiseMaxMsg + 4, Nat.le_refl _, hr.trans hk⟩

end Connection

/-! ## What a peer can make of it -/

/-- Whatever frames a peer sends, for ever or not, `recv` returns after at most as many as the
longest message and its header have bytes, no operation on a buffer is out of bounds, the buffer
holds no more than a message and a frame, and what is returned is a message within the limit
whose bytes the plaintexts begin with. On a connection that is what `recv` does, as the library's
plaintexts are 16 bytes shorter than their frames. -/
theorem recv_safe :
    (∀ peer : Peer, (∀ k f, peer k = .ok f → f.Fits) →
      (∃ r, Progress.start.after peer (noiseMaxMsg + 4) = .done r) ∧
      (∀ k, Progress.start.after peer k ≠ .outOfBounds) ∧
      (∀ k b f, Progress.start.after peer k = .waiting b → peer k = .ok f →
        (b.out ++ f.plaintext).length ≤ noiseMaxMsg + noiseMaxFrame) ∧
      ∀ k m, Progress.start.after peer k = .done (.ok m) →
        m.length ≤ noiseMaxMsg ∧ toBe 4 m.length ++ m <+: received peer k) ∧
    ∀ T : Transport, (∀ i c p, T.readMessage i c = .ok p → p.length + 16 ≤ c.length) → ∀ c : NoiseConn,
      (∀ k f, c.peer T k = .ok f → f.Fits) ∧
      ∃ k ≤ noiseMaxMsg + 4, Progress.start.after (c.peer T) k = .done ((c.recv T).map Prod.fst) ∧
        ∀ m c', c.recv T = .ok (m, c') →
          m.length ≤ noiseMaxMsg ∧ toBe 4 m.length ++ m <+: received (c.peer T) k := by
  refine ⟨fun peer hpeer => ?_, fun T hT c => ⟨fits_peer hT c, ?_⟩⟩
  · exact ⟨returned hpeer, not_outOfBounds hpeer, fun _ _ _ => buffer_length hpeer, fun _ _ => message_received hpeer⟩
  · obtain ⟨k, hle, hk⟩ := recv_returned hT c
    refine ⟨k, hle, hk, fun m c' hrecv => ?_⟩
    rw [hrecv] at hk
    exact message_received (fits_peer hT c) hk

/-! ### A peer that does not stop -/

/-- One byte in every frame, and a header that asks for as much as is allowed. -/
def slowPeer : Peer := fun k => .ok ⟨17, [if k = 1 then 16 else 0]⟩

theorem slowPeer_stopped :
    (∃ r, Progress.start.after slowPeer (noiseMaxMsg + 4) = .done r) ∧
    ∃ k ≤ noiseMaxMsg + 4, Progress.start.after (NoiseConn.peer plain ⟨writeFrame (List.replicate 17 1), [], 0, 0⟩) k =
      .done ((NoiseConn.recv plain ⟨writeFrame (List.replicate 17 1), [], 0, 0⟩).map Prod.fst) := by
  have hone : 1 ≤ noiseMaxFrame ∧ 1 ≤ 17 := by decide
  have hplain (i : Nat) (c p : List UInt8) (h : plain.readMessage i c = .ok p) : p.length + 16 ≤ c.length := by
    unfold plain at h
    dsimp only at h
    split at h
    · cases h
    · cases h
      rw [List.length_take]
      omega
  refine ⟨(recv_safe.1 slowPeer fun k f hf => ?_).1, ?_⟩
  · cases hf
    exact ⟨hone.1, hone.2⟩
  · obtain ⟨-, k, hle, hk, -⟩ := recv_safe.2 plain hplain ⟨writeFrame (List.replicate 17 1), [], 0, 0⟩
    exact ⟨k, hle, hk⟩

end Ipgate.Noise
