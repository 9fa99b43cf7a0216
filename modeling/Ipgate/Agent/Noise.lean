-- SUMMARY: noise.rs: frames on the stream, messages of many frames, and the round trip of sending and receiving.
import Ipgate.Lib.Bytes

/-!
# The Noise transport

After the handshake the connection carries frames: two bytes of length, then one
message of the Noise transport. A logical message has four bytes of length in front
and is cut into as many frames as it needs.

The transport is a parameter. `Transport.Perfect` is what is relied on: the message
with the number `i` is read back as what was written under the number `i`, and is 16
bytes longer.
-/

namespace Ipgate.Noise

open Bytes

/-- The longest plaintext of one frame. -/
def noiseMaxFrame : Nat := 65519

/-- The longest logical message that is received. -/
def noiseMaxMsg : Nat := 1048576

/-! ## The transport -/

/-- The two ciphers of a session; each message has a number in its direction. -/
structure Transport where
  writeMessage : Nat → List UInt8 → Except String (List UInt8)
  readMessage : Nat → List UInt8 → Except String (List UInt8)

/-- Every plaintext that fits a frame arrives, and its ciphertext is 16 bytes longer. -/
def Transport.Perfect (T : Transport) : Prop :=
  ∀ (i : Nat) (p : List UInt8), p.length ≤ noiseMaxFrame →
    ∃ c, T.writeMessage i p = .ok c ∧ c.length = p.length + 16 ∧ T.readMessage i c = .ok p

/-! ## Frames -/

/-- A frame and the rest of the stream. -/
def readFrame (s : List UInt8) : Except String (List UInt8 × List UInt8) :=
  if s.length < 2 then .error "读 Noise 帧长失败"
  else
    let n := fromBe (s.take 2)
    let body := s.drop 2
    if n = 0 then .error "收到空 Noise 帧"
    else if body.length < n then .error "读 Noise 帧体失败"
    else .ok (body.take n, body.drop n)

def writeFrame (data : List UInt8) : List UInt8 := toBe 2 data.length ++ data

theorem length_of_readFrame {s frame rest : List UInt8} (h : readFrame s = .ok (frame, rest)) :
    rest.length < s.length := by
  unfold readFrame at h
  split at h
  · cases h
  · dsimp only at h
    split at h
    · cases h
    · split at h
      · cases h
      · cases h
        simp only [List.length_drop]
        omega

/-- A frame that is not empty and fits its length is read back. -/
theorem readFrame_writeFrame {data : List UInt8} (hpos : 0 < data.length)
    (hfit : data.length < 65536) (rest : List UInt8) :
    readFrame (writeFrame data ++ rest) = .ok (data, rest) := by
  have hlen : fromBe (toBe 2 data.length) = data.length := by
    rw [fromBe_toBe]
    exact Nat.mod_eq_of_lt hfit
  have htake : (writeFrame data ++ rest).take 2 = toBe 2 data.length := by
    rw [writeFrame, List.append_assoc]
    exact List.take_left' (length_toBe ..)
  have hdrop : (writeFrame data ++ rest).drop 2 = data ++ rest := by
    rw [writeFrame, List.append_assoc]
    exact List.drop_left' (length_toBe ..)
  have htwo : ¬(writeFrame data ++ rest).length < 2 := by
    rw [writeFrame, List.length_append, List.length_append, length_toBe]
    omega
  unfold readFrame
  rw [if_neg htwo, htake, hdrop, hlen]
  dsimp only
  rw [if_neg (by omega), if_neg (by rw [List.length_append]; omega),
    List.take_left, List.drop_left]

/-! ## Messages -/

/-- What `recv` has accumulated: the length, once four bytes have come, and the bytes behind
it. -/
structure Buffered where
  total : Option Nat
  out : List UInt8

inductive Fed where
  | message (m : List UInt8)
  | more (b : Buffered)

/-- The last step of the loop: the message is complete or more frames are needed. -/
def finish (len : Nat) (out : List UInt8) : Fed :=
  if len ≤ out.length then .message (out.take len) else .more ⟨some len, out⟩

/-- One turn of the loop of `recv`, with the plaintext of the frame. -/
def Buffered.feed (b : Buffered) (buf : List UInt8) : Except String Fed :=
  if buf.length = 0 then .error "收到空明文 Noise 帧"
  else
    let out := b.out ++ buf
    match b.total with
    | some len => .ok (finish len out)
    | none =>
      if out.length < 4 then .ok (.more ⟨none, out⟩)
      else
        let len := fromBe (out.take 4)
        if noiseMaxMsg < len then
          .error s!"Noise 逻辑消息过大：{len} 字节 > 上限 {noiseMaxMsg}"
        else .ok (finish len (out.drop 4))

/-! ## The connection -/

/-- One end of an established connection: what has arrived and is not read, what was
written, and the numbers of the next messages. -/
structure NoiseConn where
  stream : List UInt8
  written : List UInt8
  receiving : Nat
  sending : Nat

def NoiseConn.recvLoop (T : Transport) (b : Buffered) (c : NoiseConn) :
    Except String (List UInt8 × NoiseConn) :=
  match _h : readFrame c.stream with
  | .error e => .error e
  | .ok (frame, rest) =>
    match T.readMessage c.receiving frame with
    | .error e => .error ("Noise 解密失败：" ++ e)
    | .ok buf =>
      match b.feed buf with
      | .error e => .error e
      | .ok (.message m) => .ok (m, { c with stream := rest, receiving := c.receiving + 1 })
      | .ok (.more b') => recvLoop T b' { c with stream := rest, receiving := c.receiving + 1 }
termination_by c.stream.length
decreasing_by exact length_of_readFrame ‹_›

def NoiseConn.recv (T : Transport) (c : NoiseConn) : Except String (List UInt8 × NoiseConn) :=
  c.recvLoop T ⟨none, []⟩

def NoiseConn.sendChunks (T : Transport) (c : NoiseConn) :
    List (List UInt8) → Except String NoiseConn
  | [] => .ok c
  | chunk :: chunks =>
    match T.writeMessage c.sending chunk with
    | .error e => .error ("Noise 加密失败：" ++ e)
    | .ok data =>
      sendChunks T { c with written := c.written ++ writeFrame data, sending := c.sending + 1 } chunks

/-- The plaintext that `send` cuts into frames. -/
def encode (plaintext : List UInt8) : List UInt8 := toBe 4 plaintext.length ++ plaintext

def NoiseConn.send (T : Transport) (c : NoiseConn) (plaintext : List UInt8) :
    Except String NoiseConn :=
  c.sendChunks T (chunks noiseMaxFrame (encode plaintext))

/-- One message after the other. -/
def NoiseConn.sendAll (T : Transport) (c : NoiseConn) : List (List UInt8) → Except String NoiseConn
  | [] => .ok c
  | m :: ms =>
    match c.send T m with
    | .error e => .error e
    | .ok c' => c'.sendAll T ms

/-- The next `n` messages. -/
def NoiseConn.recvAll (T : Transport) (c : NoiseConn) :
    Nat → Except String (List (List UInt8) × NoiseConn)
  | 0 => .ok ([], c)
  | n + 1 =>
    match c.recv T with
    | .error e => .error e
    | .ok (m, c') =>
      match c'.recvAll T n with
      | .error e => .error e
      | .ok (ms, c'') => .ok (m :: ms, c'')

/-! ## What a plaintext says -/

/-- The message of `len` bytes at the front and the bytes behind it, once it is there. -/
def decodeBody (len : Nat) (xs : List UInt8) : Option (Except String (List UInt8 × List UInt8)) :=
  if len ≤ xs.length then some (.ok (xs.take len, xs.drop len)) else none

/-- What the bytes say to a receiver, however they were cut into frames: nothing yet, that the
message is too long, or the message and the bytes behind it. -/
def decode (xs : List UInt8) : Option (Except String (List UInt8 × List UInt8)) :=
  if xs.length < 4 then none
  else if noiseMaxMsg < fromBe (xs.take 4) then
    some (.error s!"Noise 逻辑消息过大：{fromBe (xs.take 4)} 字节 > 上限 {noiseMaxMsg}")
  else decodeBody (fromBe (xs.take 4)) (xs.drop 4)

/-- What the buffer and the bytes to come say. -/
def Buffered.decode (b : Buffered) (xs : List UInt8) :
    Option (Except String (List UInt8 × List UInt8)) :=
  match b.total with
  | none => Noise.decode (b.out ++ xs)
  | some len => decodeBody len (b.out ++ xs)

theorem decode_encode {p : List UInt8} (hp : p.length ≤ noiseMaxMsg) :
    decode (encode p) = some (.ok (p, [])) := by
  have hlen : fromBe (toBe 4 p.length) = p.length := by
    rw [fromBe_toBe]
    exact Nat.mod_eq_of_lt (Nat.lt_of_le_of_lt hp (by decide))
  have htake : (encode p).take 4 = toBe 4 p.length := List.take_left' (length_toBe ..)
  have hdrop : (encode p).drop 4 = p := List.drop_left' (length_toBe ..)
  have hfour : ¬(encode p).length < 4 := by simp [encode]
  rw [decode, if_neg hfour, htake, hdrop, hlen, if_neg (Nat.not_lt.mpr hp), decodeBody,
    if_pos (Nat.le_refl _), List.take_length, List.drop_length]

/-- A message over the limit is refused by its length, whatever follows. -/
theorem decode_encode_long {p : List UInt8} (hp : noiseMaxMsg < p.length)
    (hfit : p.length < 4294967296) :
    decode (encode p) =
      some (.error s!"Noise 逻辑消息过大：{p.length} 字节 > 上限 {noiseMaxMsg}") := by
  have hlen : fromBe (toBe 4 p.length) = p.length := by
    rw [fromBe_toBe]
    exact Nat.mod_eq_of_lt hfit
  have htake : (encode p).take 4 = toBe 4 p.length := List.take_left' (length_toBe ..)
  have hfour : ¬(encode p).length < 4 := by simp [encode]
  rw [decode, if_neg hfour, htake, hlen, if_pos hp]

/-- Bytes that say a message are those of the message, and what is behind it. -/
theorem decode_eq_ok {xs m rest : List UInt8} (h : decode xs = some (.ok (m, rest))) :
    m.length ≤ noiseMaxMsg ∧ xs = encode m ++ rest := by
  unfold decode at h
  split at h
  · cases h
  · next hfour =>
    split at h
    · cases h
    · next hmax =>
      unfold decodeBody at h
      split at h
      · next hle =>
        cases h
        have hlen : ((xs.drop 4).take (fromBe (xs.take 4))).length = fromBe (xs.take 4) := List.length_take_of_le hle
        have htake : (xs.take 4).length = 4 := List.length_take_of_le (Nat.not_lt.mp hfour)
        have hhead : toBe 4 (fromBe (xs.take 4)) = xs.take 4 := by
          have hbytes := toBe_fromBe (xs.take 4)
          rwa [htake] at hbytes
        refine ⟨Nat.le_trans (Nat.le_of_eq hlen) (Nat.not_lt.mp hmax), ?_⟩
        rw [encode, hlen, hhead, List.append_assoc, List.take_append_drop, List.take_append_drop]
      · cases h

/-- Bytes that say nothing yet are fewer than a message has at most. -/
theorem decode_eq_none {xs : List UInt8} (h : decode xs = none) : xs.length < noiseMaxMsg + 4 := by
  unfold decode at h
  split at h
  · next hfour => omega
  · split at h
    · cases h
    · next hmax =>
      unfold decodeBody at h
      split at h
      · cases h
      · next hlen =>
        rw [List.length_drop] at hlen
        omega

/-- The answer is what the bytes `d` was given say, whatever bytes follow. -/
def Says (answer : Except String Fed)
    (d : List UInt8 → Option (Except String (List UInt8 × List UInt8))) : Prop :=
  match answer with
  | .error e => ∀ xs, d xs = some (.error e)
  | .ok (.message m) => ∃ extra, ∀ xs, d xs = some (.ok (m, extra ++ xs))
  | .ok (.more b) => b.decode [] = none ∧ ∀ xs, b.decode xs = d xs

theorem finish_says (len : Nat) (out : List UInt8) :
    Says (.ok (finish len out)) fun xs => decodeBody len (out ++ xs) := by
  unfold finish
  by_cases hle : len ≤ out.length
  · rw [if_pos hle]
    refine ⟨out.drop len, fun xs => ?_⟩
    have happ : len ≤ (out ++ xs).length := by rw [List.length_append]; omega
    dsimp only
    rw [decodeBody, if_pos happ, List.take_append_of_le_length hle,
      List.drop_append_of_le_length hle]
  · rw [if_neg hle]
    refine ⟨?_, fun xs => rfl⟩
    rw [Buffered.decode, List.append_nil]
    exact if_neg hle

/-- One turn of the loop answers what the bytes so far say. -/
theorem Buffered.feed_says (b : Buffered) {f : List UInt8} (hf : f ≠ []) :
    Says (b.feed f) fun xs => b.decode (f ++ xs) := by
  have hlen : ¬f.length = 0 := by simpa using hf
  obtain ⟨total, out⟩ := b
  unfold Buffered.feed
  rw [if_neg hlen]
  dsimp only
  cases total with
  | some len =>
    have hfinish := finish_says len (out ++ f)
    simp only [List.append_assoc] at hfinish
    exact hfinish
  | none =>
    dsimp only
    by_cases hfour : (out ++ f).length < 4
    · rw [if_pos hfour]
      refine ⟨?_, fun xs => ?_⟩
      · rw [Buffered.decode, List.append_nil]
        exact if_pos hfour
      · simp only [Buffered.decode, List.append_assoc]
    · rw [if_neg hfour]
      -- the header does not change when more bytes come
      have hdecode (xs : List UInt8) : (⟨none, out⟩ : Buffered).decode (f ++ xs) =
          if noiseMaxMsg < fromBe ((out ++ f).take 4) then
            some (.error
              s!"Noise 逻辑消息过大：{fromBe ((out ++ f).take 4)} 字节 > 上限 {noiseMaxMsg}")
          else decodeBody (fromBe ((out ++ f).take 4)) ((out ++ f).drop 4 ++ xs) := by
        have hmore : ¬(out ++ f ++ xs).length < 4 := by rw [List.length_append]; omega
        rw [Buffered.decode, ← List.append_assoc, Noise.decode, if_neg hmore,
          List.take_append_of_le_length (Nat.not_lt.mp hfour),
          List.drop_append_of_le_length (Nat.not_lt.mp hfour)]
      by_cases hmax : noiseMaxMsg < fromBe ((out ++ f).take 4)
      · rw [if_pos hmax]
        exact fun xs => (hdecode xs).trans (if_pos hmax)
      · rw [if_neg hmax]
        simp only [hdecode, if_neg hmax]
        exact finish_says _ _

/-! ## Frames that carry plaintexts -/

/-- The frames carry the plaintexts, numbered from `i`. -/
inductive Sealed (T : Transport) : Nat → List (List UInt8) → List (List UInt8) → Prop where
  | nil (i : Nat) : Sealed T i [] []
  | cons {i : Nat} {f data : List UInt8} {fs frames : List (List UInt8)} :
      T.writeMessage i f = .ok data → Sealed T (i + 1) fs frames →
      Sealed T i (f :: fs) (data :: frames)

/-- A plaintext that `recv` accepts in one frame. -/
def Fits (f : List UInt8) : Prop := 0 < f.length ∧ f.length ≤ noiseMaxFrame

section Transport

variable {T : Transport}

/-- The frames are written one behind the other. -/
theorem sendChunks_ok (hT : T.Perfect) (c : NoiseConn) {fs : List (List UInt8)}
    (hfs : ∀ f ∈ fs, Fits f) :
    ∃ frames, Sealed T c.sending fs frames ∧
      c.sendChunks T fs = .ok { c with
        written := c.written ++ frames.flatMap writeFrame, sending := c.sending + fs.length } := by
  induction fs generalizing c with
  | nil => exact ⟨[], .nil _, by simp [NoiseConn.sendChunks]⟩
  | cons f fs ih =>
    obtain ⟨data, hwrite, -, -⟩ := hT c.sending f (hfs f (List.mem_cons_self ..)).2
    obtain ⟨frames, hsealed, hsend⟩ :=
      ih { c with written := c.written ++ writeFrame data, sending := c.sending + 1 }
        fun f' hf' => hfs f' (List.mem_cons_of_mem f hf')
    refine ⟨data :: frames, .cons hwrite hsealed, ?_⟩
    rw [NoiseConn.sendChunks, hwrite]
    dsimp only
    rw [hsend]
    simp [Nat.add_assoc, Nat.add_comm 1]

/-- The length of every frame written is not zero and fits two bytes. -/
theorem Sealed.frame_length (hT : T.Perfect) {i : Nat} {fs frames : List (List UInt8)}
    (h : Sealed T i fs frames) (hfs : ∀ f ∈ fs, Fits f) :
    ∀ frame ∈ frames, 0 < frame.length ∧ frame.length < 65536 := by
  induction h with
  | nil => exact fun _ hmem => nomatch hmem
  | @cons i f data fs frames hwrite _ ih =>
    have hmax := (hfs f (List.mem_cons_self ..)).2
    intro frame hmem
    cases List.mem_cons.mp hmem with
    | inl hhead =>
      obtain ⟨c, hc, hlen, -⟩ := hT i f hmax
      rw [hwrite] at hc
      cases hc
      rw [hhead, hlen]
      unfold noiseMaxFrame at hmax
      omega
    | inr htail => exact ih (fun f' hf' => hfs f' (List.mem_cons_of_mem f hf')) frame htail

/-- One turn of the loop, for a frame that arrives. -/
theorem recvLoop_frame {b : Buffered} {c : NoiseConn} {frame rest buf : List UInt8}
    (hread : readFrame c.stream = .ok (frame, rest))
    (hopen : T.readMessage c.receiving frame = .ok buf) :
    c.recvLoop T b =
      match b.feed buf with
      | .error e => .error e
      | .ok (.message m) => .ok (m, { c with stream := rest, receiving := c.receiving + 1 })
      | .ok (.more b') =>
        NoiseConn.recvLoop T b' { c with stream := rest, receiving := c.receiving + 1 } := by
  rw [NoiseConn.recvLoop]
  split
  · next e herr => rw [hread] at herr; cases herr
  · next frame' rest' hok =>
    rw [hread] at hok
    cases hok
    rw [hopen]

/-- How the loop ends over frames numbered from `i` that carry `fs`, with `tail` behind them:
what the bytes in the frames say, and the result. -/
inductive Ended (T : Transport) (c : NoiseConn) (tail : List UInt8) (i : Nat)
    (fs : List (List UInt8)) :
    Option (Except String (List UInt8 × List UInt8)) →
    Except String (List UInt8 × NoiseConn) → Prop where
  | refused (e : String) : Ended T c tail i fs (some (.error e)) (.error e)
  | message {m skipped : List UInt8} {read unread framesLeft : List (List UInt8)} :
      fs = read ++ unread → (unread = [] → framesLeft = []) →
      Ended T c tail i fs (some (.ok (m, skipped ++ unread.flatten)))
        (.ok (m, { c with
          stream := framesLeft.flatMap writeFrame ++ tail, receiving := i + read.length }))
  | waiting {b : Buffered} : b.decode [] = none →
      Ended T c tail i fs none
        (NoiseConn.recvLoop T b { c with stream := tail, receiving := i + fs.length })

/-- A frame in front that did not end the loop. -/
theorem Ended.cons {c : NoiseConn} {tail f : List UInt8} {i : Nat} {fs : List (List UInt8)}
    {said result} (h : Ended T c tail (i + 1) fs said result) :
    Ended T c tail i (f :: fs) said result := by
  have hshift (n : Nat) : i + 1 + n = i + (n + 1) := by omega
  cases h with
  | refused e => exact .refused e
  | @message m skipped read unread framesLeft hfs hleft =>
    rw [hshift]
    exact @message _ _ _ _ _ _ _ (f :: read) _ _ (by rw [hfs, List.cons_append]) hleft
  | waiting hb =>
    rw [hshift]
    exact .waiting hb

/-- The loop over sealed frames does what the bytes in them say, or waits for more. -/
theorem recvLoop_sealed (hT : T.Perfect) {i : Nat} {fs frames : List (List UInt8)}
    (hs : Sealed T i fs frames) (hfs : ∀ f ∈ fs, Fits f) (c : NoiseConn) (tail : List UInt8)
    {b : Buffered} (hb : b.decode [] = none) :
    Ended T c tail i fs (b.decode fs.flatten)
      (NoiseConn.recvLoop T b
        { c with stream := frames.flatMap writeFrame ++ tail, receiving := i }) := by
  induction hs generalizing b with
  | nil i =>
    rw [List.flatten_nil, hb]
    exact .waiting hb
  | @cons i f data fs frames hwrite hsealed ih =>
    have hfits := hfs f (List.mem_cons_self ..)
    have hdata := (Sealed.cons hwrite hsealed).frame_length hT hfs data (List.mem_cons_self ..)
    obtain ⟨c', hc', -, hopen⟩ := hT i f hfits.2
    rw [hwrite] at hc'
    cases hc'
    have hread := readFrame_writeFrame hdata.1 hdata.2 (frames.flatMap writeFrame ++ tail)
    rw [List.flatMap_cons, List.append_assoc, recvLoop_frame hread hopen, List.flatten_cons]
    have hsays := b.feed_says (List.ne_nil_of_length_pos hfits.1)
    -- a message may end before the frames do; what is left over of its frame is dropped
    cases hfeed : b.feed f with
    | error e =>
      have hsaid : b.decode (f ++ fs.flatten) = some (.error e) := by
        rw [hfeed] at hsays
        exact hsays _
      rw [hsaid]
      exact .refused e
    | ok fed =>
      rw [hfeed] at hsays
      cases fed with
      | message m =>
        obtain ⟨extra, hextra⟩ := hsays
        have hsaid : b.decode (f ++ fs.flatten) = some (.ok (m, extra ++ fs.flatten)) := hextra _
        rw [hsaid]
        refine @Ended.message _ _ _ _ _ _ _ [f] _ _ rfl ?_
        rintro rfl
        cases hsealed
        rfl
      | more b' =>
        obtain ⟨hb', hsame⟩ := hsays
        have hsaid : b.decode (f ++ fs.flatten) = b'.decode fs.flatten := (hsame _).symm
        rw [hsaid]
        exact (ih (fun f' hf' => hfs f' (List.mem_cons_of_mem f hf')) hb').cons

/-! ## Sending and receiving -/

/-- Exactly the bytes of a message give that message, however they are cut. -/
theorem recv_message (hT : T.Perfect) {i : Nat} {fs frames : List (List UInt8)}
    (hs : Sealed T i fs frames) (hfs : ∀ f ∈ fs, Fits f) {m : List UInt8}
    (hm : decode fs.flatten = some (.ok (m, []))) (c : NoiseConn) (tail : List UInt8) :
    NoiseConn.recv T { c with stream := frames.flatMap writeFrame ++ tail, receiving := i } =
      .ok (m, { c with stream := tail, receiving := i + fs.length }) := by
  have hended := recvLoop_sealed hT hs hfs c tail (b := ⟨none, []⟩) rfl
  have hsaid : Buffered.decode ⟨none, []⟩ fs.flatten = some (.ok (m, [])) := hm
  rw [hsaid] at hended
  unfold NoiseConn.recv
  generalize NoiseConn.recvLoop T _ _ = result at hended
  generalize hd : some (Except.ok (m, ([] : List UInt8))) = d at hended
  cases hended with
  | refused e => cases hd
  | waiting hb => cases hd
  | @message m' skipped read unread framesLeft hsplit hleft =>
    simp only [Option.some.injEq, Except.ok.injEq, Prod.mk.injEq] at hd
    obtain ⟨rfl, hrest⟩ := hd
    have hunread : unread = [] := by
      have hnil := (List.append_eq_nil_iff.mp hrest.symm).2
      rw [List.eq_nil_iff_forall_not_mem]
      intro f hf
      have hpos := (hfs f (hsplit ▸ List.mem_append_right read hf)).1
      rw [List.flatten_eq_nil_iff.mp hnil f hf] at hpos
      cases hpos
    rw [hleft hunread, hsplit, hunread, List.append_nil]
    rfl

/-- Bytes that say that the message is too long make `recv` fail. -/
theorem recv_refused (hT : T.Perfect) {i : Nat} {fs frames : List (List UInt8)}
    (hs : Sealed T i fs frames) (hfs : ∀ f ∈ fs, Fits f) {e : String}
    (he : decode fs.flatten = some (.error e)) (c : NoiseConn) (tail : List UInt8) :
    NoiseConn.recv T { c with stream := frames.flatMap writeFrame ++ tail, receiving := i } =
      .error e := by
  have hended := recvLoop_sealed hT hs hfs c tail (b := ⟨none, []⟩) rfl
  have hsaid : Buffered.decode ⟨none, []⟩ fs.flatten = some (.error e) := he
  rw [hsaid] at hended
  unfold NoiseConn.recv
  generalize NoiseConn.recvLoop T _ _ = result at hended
  cases hended
  rfl

/-- The result of `recv` on the frames alone is a function of the bytes in them. -/
theorem recv_decode (hT : T.Perfect) {i : Nat} {fs frames : List (List UInt8)}
    (hs : Sealed T i fs frames) (hfs : ∀ f ∈ fs, Fits f) (c : NoiseConn) :
    (NoiseConn.recv T { c with stream := frames.flatMap writeFrame, receiving := i }).map Prod.fst =
      match decode fs.flatten with
      | none => .error "读 Noise 帧长失败"
      | some said => said.map Prod.fst := by
  have hended := recvLoop_sealed hT hs hfs c [] (b := ⟨none, []⟩) rfl
  rw [List.append_nil] at hended
  have hsaid : Buffered.decode ⟨none, []⟩ fs.flatten = decode fs.flatten := rfl
  rw [hsaid] at hended
  unfold NoiseConn.recv
  generalize NoiseConn.recvLoop T _ _ = result at hended
  generalize decode fs.flatten = said at hended
  cases hended with
  | refused e => rfl
  | message => rfl
  | waiting hb =>
    rw [NoiseConn.recvLoop]
    rfl

/-- A message is written as frames that carry its bytes. -/
theorem send_ok (hT : T.Perfect) (c : NoiseConn) (m : List UInt8) :
    ∃ fs frames, fs.flatten = encode m ∧ (∀ f ∈ fs, Fits f) ∧ Sealed T c.sending fs frames ∧
      c.send T m = .ok { c with
        written := c.written ++ frames.flatMap writeFrame, sending := c.sending + fs.length } := by
  have hfits : ∀ f ∈ chunks noiseMaxFrame (encode m), Fits f :=
    fun f hf => length_of_mem_chunks hf
  obtain ⟨frames, hsealed, hsend⟩ := sendChunks_ok hT c hfits
  exact ⟨_, frames, flatten_chunks (by decide), hfits, hsealed, hsend⟩

theorem sendAll_concat {c c' : NoiseConn} {ms : List (List UInt8)} (m : List UInt8)
    (h : c.sendAll T ms = .ok c') : c.sendAll T (ms ++ [m]) = c'.send T m := by
  induction ms generalizing c with
  | nil =>
    cases h
    rw [List.nil_append, NoiseConn.sendAll]
    cases hsend : NoiseConn.send T c' m <;> rfl
  | cons m' ms ih =>
    rw [NoiseConn.sendAll] at h
    rw [List.cons_append, NoiseConn.sendAll]
    cases hsend : c.send T m' with
    | error e => rw [hsend] at h; cases h
    | ok c'' =>
      rw [hsend] at h
      exact ih h

/-- Messages within the limit are received as they were sent. -/
theorem sendAll_recvAll (hT : T.Perfect) (a : NoiseConn) {ms : List (List UInt8)}
    (hms : ∀ m ∈ ms, m.length ≤ noiseMaxMsg) :
    ∃ (a' : NoiseConn) (frames : List (List UInt8)), a.sendAll T ms = .ok a' ∧
      a'.written = a.written ++ frames.flatMap writeFrame ∧
      (∀ frame ∈ frames, 0 < frame.length ∧ frame.length < 65536) ∧
      ∀ (c : NoiseConn) (tail : List UInt8),
        NoiseConn.recvAll T
            { c with stream := frames.flatMap writeFrame ++ tail, receiving := a.sending }
            ms.length =
          .ok (ms, { c with stream := tail, receiving := a'.sending }) := by
  induction ms generalizing a with
  | nil =>
    refine ⟨a, [], rfl, (List.append_nil _).symm, ?_, fun _ _ => rfl⟩
    intro frame hmem
    cases hmem
  | cons m ms ih =>
    obtain ⟨fs, frames, hflat, hfits, hsealed, hsend⟩ := send_ok hT a m
    obtain ⟨a', frames', hsendAll, hwritten, hlen, hrecv⟩ :=
      ih { a with
        written := a.written ++ frames.flatMap writeFrame, sending := a.sending + fs.length }
        fun m' hm' => hms m' (List.mem_cons_of_mem m hm')
    refine ⟨a', frames ++ frames', ?_, ?_, ?_, ?_⟩
    · rw [NoiseConn.sendAll, hsend]
      exact hsendAll
    · rw [hwritten, List.flatMap_append, List.append_assoc]
    · intro frame hmem
      cases List.mem_append.mp hmem with
      | inl hthis => exact hsealed.frame_length hT hfits frame hthis
      | inr hlater => exact hlen frame hlater
    · intro c tail
      have hm : decode fs.flatten = some (.ok (m, [])) := by
        rw [hflat]
        exact decode_encode (hms m (List.mem_cons_self ..))
      rw [List.length_cons, NoiseConn.recvAll, List.flatMap_append, List.append_assoc,
        recv_message hT hsealed hfits hm]
      dsimp only
      rw [hrecv]

/-- Messages within the limit arrive as they were sent, each in frames whose length is not zero
and fits its prefix; a longer one makes the matching `recv` fail; and the bytes of a message
arrive however they are cut, the result being a function of the bytes alone. -/
theorem framing_round_trip (hT : T.Perfect) (a c : NoiseConn) :
    (∀ ms : List (List UInt8), (∀ m ∈ ms, m.length ≤ noiseMaxMsg) →
      ∃ (a' : NoiseConn) (frames : List (List UInt8)), a.sendAll T ms = .ok a' ∧
        a'.written = a.written ++ frames.flatMap writeFrame ∧
        (∀ frame ∈ frames, 0 < frame.length ∧ frame.length < 65536) ∧
        ∀ tail, NoiseConn.recvAll T
            { c with stream := frames.flatMap writeFrame ++ tail, receiving := a.sending }
            ms.length =
          .ok (ms, { c with stream := tail, receiving := a'.sending })) ∧
    (∀ (ms : List (List UInt8)) (m : List UInt8), (∀ m ∈ ms, m.length ≤ noiseMaxMsg) →
      noiseMaxMsg < m.length → m.length < 4294967296 →
      ∃ (a' : NoiseConn) (frames : List (List UInt8)), a.sendAll T (ms ++ [m]) = .ok a' ∧
        a'.written = a.written ++ frames.flatMap writeFrame ∧
        (∀ frame ∈ frames, 0 < frame.length ∧ frame.length < 65536) ∧
        ∀ tail, ∃ c', NoiseConn.recvAll T
            { c with stream := frames.flatMap writeFrame ++ tail, receiving := a.sending }
            ms.length = .ok (ms, c') ∧
          c'.recv T = .error s!"Noise 逻辑消息过大：{m.length} 字节 > 上限 {noiseMaxMsg}") ∧
    (∀ fs : List (List UInt8), (∀ f ∈ fs, Fits f) →
      ∃ (a' : NoiseConn) (frames : List (List UInt8)), a.sendChunks T fs = .ok a' ∧
        a'.written = a.written ++ frames.flatMap writeFrame ∧
        (∀ p : List UInt8, p.length ≤ noiseMaxMsg → fs.flatten = encode p → ∀ tail,
          NoiseConn.recv T
              { c with stream := frames.flatMap writeFrame ++ tail, receiving := a.sending } =
            .ok (p, { c with stream := tail, receiving := a'.sending })) ∧
        (NoiseConn.recv T
            { c with stream := frames.flatMap writeFrame, receiving := a.sending }).map Prod.fst =
          match decode fs.flatten with
          | none => .error "读 Noise 帧长失败"
          | some said => said.map Prod.fst) := by
  refine ⟨fun ms hms => ?_, fun ms m hms hlong hfit => ?_, fun fs hfs => ?_⟩
  · obtain ⟨a', frames, hsend, hwritten, hlen, hrecv⟩ := sendAll_recvAll hT a hms
    exact ⟨a', frames, hsend, hwritten, hlen, hrecv c⟩
  · obtain ⟨a', frames, hsend, hwritten, hlen, hrecv⟩ := sendAll_recvAll hT a hms
    obtain ⟨fs, frames', hflat, hfits, hsealed, hsend'⟩ := send_ok hT a' m
    refine ⟨_, frames ++ frames', (sendAll_concat m hsend).trans hsend', ?_, ?_, ?_⟩
    · rw [hwritten, List.flatMap_append, List.append_assoc]
    · intro frame hmem
      cases List.mem_append.mp hmem with
      | inl hearlier => exact hlen frame hearlier
      | inr hlast => exact hsealed.frame_length hT hfits frame hlast
    · intro tail
      -- the prefix alone refuses the long message, whatever of it has arrived
      have hm := decode_encode_long hlong hfit
      rw [← hflat] at hm
      refine ⟨_, ?_, recv_refused hT hsealed hfits hm c tail⟩
      rw [List.flatMap_append, List.append_assoc]
      exact hrecv c _
  · obtain ⟨frames, hsealed, hsend⟩ := sendChunks_ok hT a hfs
    refine ⟨_, frames, hsend, rfl, ?_, recv_decode hT hsealed hfs c⟩
    intro p hp hflat tail
    have hm := decode_encode hp
    rw [← hflat] at hm
    exact recv_message hT hsealed hfs hm c tail

end Transport

/-- A transport that keeps the plaintext and puts 16 bytes behind it. -/
def plain : Transport where
  writeMessage _ p := .ok (p ++ List.replicate 16 0)
  readMessage _ c := if c.length < 16 then .error "decrypt error" else .ok (c.take (c.length - 16))

theorem plain_perfect : plain.Perfect := by
  intro i p _
  refine ⟨_, rfl, by simp, ?_⟩
  simp [plain]

/-- A message that takes two frames and an empty one, over a new connection. -/
theorem framing_round_trip_plain :
    ∃ (a' : NoiseConn) (frames : List (List UInt8)),
      NoiseConn.sendAll plain ⟨[], [], 0, 0⟩ [List.replicate 100000 7, []] = .ok a' ∧
      (∀ frame ∈ frames, 0 < frame.length ∧ frame.length < 65536) ∧
      NoiseConn.recvAll plain ⟨frames.flatMap writeFrame, [], 0, 0⟩ 2 =
        .ok ([List.replicate 100000 7, []], ⟨[], [], a'.sending, 0⟩) := by
  have hmax : ∀ m ∈ [List.replicate 100000 (7 : UInt8), []], m.length ≤ noiseMaxMsg := by
    rw [List.forall_mem_cons, List.forall_mem_singleton, List.length_replicate]
    decide
  obtain ⟨a', frames, hsend, -, hlen, hrecv⟩ :=
    (framing_round_trip plain_perfect ⟨[], [], 0, 0⟩ ⟨[], [], 0, 0⟩).1 _ hmax
  have htail := hrecv []
  rw [List.append_nil] at htail
  exact ⟨a', frames, hsend, hlen, htail⟩

end Ipgate.Noise
