import Mathlib.Data.List.Forall2
import Mathlib.Data.List.Induction
import PasswdSso.Ssh.Ecdsa

/-!
# Replies of the SSH agent on a connection

`handleConnection` appends the chunks of a client to a buffer and drains it: one message at a time is taken off and
handled, and its reply is written before the next one is taken. Whatever the chunks are and whenever the handlers
complete, the replies answer the frames of the stream in their order, one each. What a frame is and which are the
complete frames of a stream is said without the parser (`IsFrame`, `Frames`).
-/

namespace PasswdSso.Ssh.Connection

open List Ecdsa

/-- `frameMessage` prefixes the body as `encodeString` prefixes a string. -/
def frameMessage (body : List UInt8) : List UInt8 := encodeString body

/-- The body of `buildFailure`, `SSH_AGENT_FAILURE`. -/
def failure : List UInt8 := [5]

/-- What the loop of `drain` finds at the start of the buffer. -/
inductive Next
  | incomplete
  | oversize
  | frame (msgBuf rest : List UInt8)

def next (buffer : List UInt8) : Next :=
  match readUint32 buffer with
  | none => .incomplete
  | some (msgLen, rest) =>
    if msgLen > 256 * 1024 then .oversize
    else if rest.length < msgLen then .incomplete
    else .frame (rest.take msgLen) (rest.drop msgLen)

/-- `isProcessing` is set exactly while `drain` awaits the handler of a message. -/
inductive Phase
  | idle
  | awaiting (msgBuf : List UInt8)
  | destroyed

structure Conn where
  buffer : List UInt8
  phase : Phase
  written : List UInt8
  /-- The messages handled so far, with the bodies of their replies. -/
  replies : List (List UInt8 × List UInt8)

/-- A body whose length fits into the four bytes before it; for any other `writeUInt32BE` throws. -/
def Body : Type := { body : List UInt8 // body.length < 2 ^ 32 }

/-- A chunk arrives, or the awaited handler returns a reply with a body or throws. -/
inductive Event
  | data (chunk : List UInt8)
  | handled (body : Option Body)

/-- The loop of `drain` up to its next `await`. -/
def Conn.drain (s : Conn) : Conn :=
  match next s.buffer with
  | .incomplete => { s with phase := .idle }
  | .oversize => { s with phase := .destroyed, buffer := [] }
  | .frame msgBuf rest => { s with phase := .awaiting msgBuf, buffer := rest }

/-- A destroyed socket emits no data, and without an awaited handler none returns. -/
def Conn.step (s : Conn) : Event → Conn
  | .data chunk =>
    match s.phase with
    | .idle => { s with buffer := s.buffer ++ chunk }.drain
    | .awaiting _ => { s with buffer := s.buffer ++ chunk }
    | .destroyed => s
  | .handled body =>
    match s.phase with
    | .awaiting msgBuf => { s with
        written := s.written ++ frameMessage (body.elim failure Subtype.val)
        replies := s.replies ++ [(msgBuf, body.elim failure Subtype.val)] }.drain
    | _ => s

/-- The connection after a list of events. -/
def handleConnection (events : List Event) : Conn := events.foldl Conn.step ⟨[], .idle, [], []⟩

def Event.bytes : Event → List UInt8
  | .data chunk => chunk
  | .handled _ => []

/-! ### Frames on the wire -/

def lengthOf (a b c d : UInt8) : ℕ := ((a.toNat * 256 + b.toNat) * 256 + c.toNat) * 256 + d.toNat

/-- The body behind its length, most significant byte first. -/
def IsFrame (body frame : List UInt8) : Prop :=
  ∃ a b c d, frame = a :: b :: c :: d :: body ∧ lengthOf a b c d = body.length

/-- The bodies of the complete frames that a stream starts with, up to a frame that is incomplete or has more than
256 KiB. -/
inductive Frames : List UInt8 → List (List UInt8) → Prop
  | noLength {bytes : List UInt8} (h : bytes.length < 4) : Frames bytes []
  | noFrame {a b c d : UInt8} {bytes : List UInt8} (h : 256 * 1024 < lengthOf a b c d ∨ bytes.length < lengthOf a b c d) :
    Frames (a :: b :: c :: d :: bytes) []
  | frame {body frame rest : List UInt8} {bodies : List (List UInt8)} (h : IsFrame body frame)
    (hsize : body.length ≤ 256 * 1024) (hrest : Frames rest bodies) : Frames (frame ++ rest) (body :: bodies)

theorem isFrame_frameMessage {body : List UInt8} (h : body.length < 2 ^ 32) : IsFrame body (frameMessage body) := by
  refine ⟨_, _, _, _, rfl, ?_⟩
  simp only [lengthOf, UInt8.toNat_ofNat']
  omega

/-- What the parser finds is there, whatever follows. -/
theorem next_spec (buffer : List UInt8) : match next buffer with
    | .incomplete => Frames buffer []
    | .oversize => ∀ later, Frames (buffer ++ later) []
    | .frame msgBuf rest => rest.length < buffer.length ∧
      ∀ later bodies, Frames (rest ++ later) bodies → Frames (buffer ++ later) (msgBuf :: bodies) := by
  rcases buffer with _ | ⟨a, _ | ⟨b, _ | ⟨c, _ | ⟨d, bytes⟩⟩⟩⟩
  · exact .noLength (by simp)
  · exact .noLength (by simp)
  · exact .noLength (by simp)
  · exact .noLength (by simp)
  simp only [next, readUint32]
  split_ifs with hoversize hincomplete
  · exact fun _ ↦ .noFrame (.inl hoversize)
  · exact .noFrame (.inr hincomplete)
  · have hlength := length_take_of_le (not_lt.mp hincomplete)
    refine ⟨by simp only [length_cons, length_drop]; omega, fun later bodies hrest ↦ ?_⟩
    have hframe := Frames.frame ⟨a, b, c, d, rfl, hlength.symm⟩ (hlength.trans_le (not_lt.mp hoversize)) hrest
    simpa only [cons_append, ← append_assoc, take_append_drop] using hframe

theorem exists_frames (bytes : List UInt8) : ∃ bodies, Frames bytes bodies := by
  have hspec := next_spec bytes
  cases hnext : next bytes with
  | incomplete => exact ⟨[], by simpa only [hnext] using hspec⟩
  | oversize =>
    rw [hnext] at hspec
    exact ⟨[], by simpa using hspec []⟩
  | frame msgBuf rest =>
    rw [hnext] at hspec
    obtain ⟨hshorter, hframes⟩ := hspec
    obtain ⟨bodies, hbodies⟩ := exists_frames rest
    exact ⟨msgBuf :: bodies, by simpa using hframes [] bodies (by simpa using hbodies)⟩
termination_by bytes.length

/-! ### Replies -/

/-- The bodies that are still to be answered when more bytes arrive. -/
def Conn.Left (s : Conn) (later : List UInt8) (bodies : List (List UInt8)) : Prop :=
  match s.phase with
  | .idle => Frames (s.buffer ++ later) bodies
  | .awaiting msgBuf => ∃ rest, bodies = msgBuf :: rest ∧ Frames (s.buffer ++ later) rest
  | .destroyed => bodies = []

/-- The frames of the bytes so far and of any later ones are those handled and those left. -/
structure InOrder (s : Conn) (bytes : List UInt8) : Prop where
  written : ∃ framed, Forall₂ IsFrame (s.replies.map Prod.snd) framed ∧ s.written = framed.flatten
  frames : ∀ later bodies, s.Left later bodies → Frames (bytes ++ later) (s.replies.map Prod.fst ++ bodies)
  idle : s.phase = .idle → Frames s.buffer []

theorem inOrder_drain {s : Conn} {bytes : List UInt8}
    (hwritten : ∃ framed, Forall₂ IsFrame (s.replies.map Prod.snd) framed ∧ s.written = framed.flatten)
    (hframes : ∀ later bodies, Frames (s.buffer ++ later) bodies →
      Frames (bytes ++ later) (s.replies.map Prod.fst ++ bodies)) : InOrder s.drain bytes := by
  have hspec := next_spec s.buffer
  unfold Conn.drain
  split
  next hnext => exact ⟨hwritten, hframes, fun _ ↦ by simpa only [hnext] using hspec⟩
  next hnext =>
    rw [hnext] at hspec
    exact ⟨hwritten, fun later _ hbodies ↦ hframes later _ (hbodies ▸ hspec later), nofun⟩
  next msgBuf rest hnext =>
    rw [hnext] at hspec
    refine ⟨hwritten, ?_, nofun⟩
    rintro later _ ⟨bodies, rfl, hbodies⟩
    exact hframes later _ (hspec.2 later bodies hbodies)

theorem InOrder.step {s : Conn} {bytes : List UInt8} (h : InOrder s bytes) (event : Event) :
    InOrder (s.step event) (bytes ++ event.bytes) := by
  obtain ⟨buffer, phase, written, replies⟩ := s
  obtain ⟨hwritten, hframes, hidle⟩ := h
  cases event with
  | data chunk =>
    have hlater (later : List UInt8) := hframes (chunk ++ later)
    simp only [Conn.Left, ← append_assoc] at hlater
    cases phase with
    | idle => exact inOrder_drain hwritten hlater
    | awaiting _ | destroyed => exact ⟨hwritten, hlater, nofun⟩
  | handled body =>
    rw [Event.bytes, append_nil]
    cases phase with
    | awaiting msgBuf =>
      refine inOrder_drain ?_ fun later bodies hbodies ↦ ?_
      · obtain ⟨framed, hreplies, rfl⟩ := hwritten
        have hshort : (body.elim failure Subtype.val).length < 2 ^ 32 := by
          cases body with
          | none => decide
          | some body => exact body.2
        refine ⟨framed ++ [frameMessage (body.elim failure Subtype.val)], ?_, by simp⟩
        simpa using rel_append hreplies (.cons (isFrame_frameMessage hshort) .nil)
      · simpa using hframes later (msgBuf :: bodies) ⟨bodies, rfl, hbodies⟩
    | idle | destroyed => exact ⟨hwritten, hframes, hidle⟩

/-- The message whose handler is awaited. -/
def Conn.awaited (s : Conn) : Option (List UInt8) :=
  match s.phase with
  | .awaiting msgBuf => some msgBuf
  | _ => none

/-- A frame in two chunks, the second of which goes on with a frame of 262145 bytes. -/
def cutFrame : List Event := [.data [0, 0], .data [0, 1, 11, 0, 4, 0, 1, 7], .handled (some ⟨[12], by decide⟩)]

end PasswdSso.Ssh.Connection
