/-
  What becomes of a message on the way.

  The full payload of a message is its layout with nothing cut: every text whole
  and every list to its end.  What is written is cut where a two-byte number
  cannot count what there is.  But what has been cut is still too long for a
  frame, so a message that is sent at all is sent in full.

  * `SentInFull`: the written payload is the full one, or neither can be sent;
    a layout has the property if its parts have it;
  * `Topic`: the thirteen types of messages, with what their layouts say
    (`Topic.full`) and what a receiver gets (`Topic.received`);
  * `Topic.delivered`: what is sent, and what every receiver makes of it.
-/
import Netplay.Packet.Lobby
import Netplay.Proofs.Texts

namespace Netplay

/-! ## What is cut is too long -/

theorem Bytes.length_le_flatMap {α : Type} {l : List α} {write : α → Bytes}
    (h : ∀ a, write a ≠ []) : l.length ≤ (l.flatMap write).length := by
  induction l with
  | nil => simp
  | cons a l ih =>
    have ha := List.length_pos_iff.2 (h a)
    rw [List.flatMap_cons, List.length_append, List.length_cons]
    omega

/-- The payload as written is the full one, or both are too long for a frame. -/
def SentInFull (written full : Bytes) : Prop :=
  written = full ∨ Frame.maxPayload < written.length ∧ Frame.maxPayload < full.length

namespace SentInFull

variable {α : Type} {w w' f f' : Bytes}

theorem refl (bs : Bytes) : SentInFull bs bs := Or.inl rfl

theorem length_le_iff (h : SentInFull w f) :
    w.length ≤ Frame.maxPayload ↔ f.length ≤ Frame.maxPayload := by
  rcases h with rfl | ⟨hw, hf⟩
  · rfl
  · exact iff_of_false (Nat.not_le.2 hw) (Nat.not_le.2 hf)

theorem eq_of_length_le (h : SentInFull w f) (hw : w.length ≤ Frame.maxPayload) : w = f := by
  rcases h with rfl | ⟨hlong, -⟩
  · rfl
  · exact absurd hw (Nat.not_le.2 hlong)

theorem append (h : SentInFull w f) (h' : SentInFull w' f') :
    SentInFull (w ++ w') (f ++ f') := by
  rcases h with rfl | ⟨hw, hf⟩
  · rcases h' with rfl | ⟨hw', hf'⟩
    · exact refl _
    · right
      simp only [List.length_append]
      omega
  · -- one part that is too long makes the whole too long, whatever the other is
    right
    simp only [List.length_append]
    omega

theorem flatMap {l : List α} {write full : α → Bytes} (h : ∀ a, SentInFull (write a) (full a)) :
    SentInFull (l.flatMap write) (l.flatMap full) := by
  induction l with
  | nil => exact refl _
  | cons a l ih =>
    rw [List.flatMap_cons, List.flatMap_cons]
    exact (h a).append ih

/-- **A list that its count cannot count is too long even when it is cut.** -/
theorem counted {l : List α} {write full : α → Bytes} (h : ∀ a, SentInFull (write a) (full a))
    (hwrite : ∀ a, write a ≠ []) (hfull : ∀ a, full a ≠ []) :
    SentInFull
      (Bytes.be16 (UInt16.ofNat (l.take Bytes.maxPrefixed).length) ++
        (l.take Bytes.maxPrefixed).flatMap write)
      (Bytes.be16 (UInt16.ofNat l.length) ++ l.flatMap full) := by
  by_cases hlen : l.length ≤ Bytes.maxPrefixed
  · rw [List.take_of_length_le hlen]
    exact (refl _).append (flatMap h)
  · -- each of the 65535 elements that stay has a byte at least, and the count has two
    right
    have hcut := Bytes.length_le_flatMap (l := l.take Bytes.maxPrefixed) hwrite
    have hlong := Bytes.length_le_flatMap (l := l) hfull
    rw [List.length_take, Nat.min_eq_left (by omega)] at hcut
    simp only [List.length_append, Bytes.length_be16, Frame.maxPayload,
      Bytes.maxPrefixed] at hlen hcut hlong ⊢
    omega

end SentInFull

/-! ## Bytes, lists and texts -/

namespace Reader

variable {α β : Type}

theorem u8_cons (b : UInt8) (rest : Bytes) : u8 (b :: rest) = (some b, rest) := by
  have htake : take 1 (b :: rest) = (some [b], rest) := take_append [b] rest rfl
  rw [u8, bind_of_some htake]
  simp [Bytes.ofBigEndian]

theorem bool_ofBool (b : Bool) (rest : Bytes) : bool (Bytes.ofBool b ++ rest) = (some b, rest) := by
  cases b <;> rfl

/-! Readers of several values take what was written apart from the front. -/

section

variable (rest : Bytes)

@[simp] theorem u8_bind (b : UInt8) (f : UInt8 → Reader β) : (u8 >>= f) (b :: rest) = f b rest :=
  bind_of_some (u8_cons b rest) f

@[simp] theorem bool_bind (b : Bool) (f : Bool → Reader β) :
    (bool >>= f) (Bytes.ofBool b ++ rest) = f b rest := bind_of_some (bool_ofBool b rest) f

@[simp] theorem u16_bind (w : UInt16) (f : UInt16 → Reader β) :
    (u16 >>= f) (Bytes.be16 w ++ rest) = f w rest := bind_of_some (u16_be16 w rest) f

@[simp] theorem u32_bind (w : UInt32) (f : UInt32 → Reader β) :
    (u32 >>= f) (Bytes.be32 w ++ rest) = f w rest := bind_of_some (u32_be32 w rest) f

@[simp] theorem ofOption_bind (a : α) (f : α → Reader β) : (ofOption (some a) >>= f) = f a := rfl

end

theorem times_append {r : Reader α} {write : α → Bytes} {l : List α}
    (h : ∀ a ∈ l, ∀ rest, r (write a ++ rest) = (some a, rest)) (done : List α) (rest : Bytes) :
    timesOnto r l.length done (l.flatMap write ++ rest) = (some (done.reverse ++ l), rest) := by
  induction l generalizing done with
  | nil => simp [timesOnto]
  | cons a l ih =>
    rw [List.flatMap_cons, List.append_assoc, List.length_cons, timesOnto,
      bind_of_some (h a List.mem_cons_self _), ih fun b hb => h b (List.mem_cons_of_mem a hb)]
    simp

theorem whole_of_append {r : Reader α} {bs : Bytes} {a : α}
    (h : ∀ rest, r (bs ++ rest) = (some a, rest)) : r.whole bs = some a := by
  have hend := h []
  rw [List.append_nil] at hend
  exact whole_eq_some.2 hend

end Reader

namespace Room

/-- A text behind its length, nothing cut. -/
def fullText (s : String) : Bytes :=
  Bytes.be16 (UInt16.ofNat (Utf8.encode s).length) ++ Utf8.encode s

theorem length_fullText (s : String) : (fullText s).length = 2 + (Utf8.encode s).length := by
  rw [fullText, List.length_append, Bytes.length_be16]

theorem sentInFull_text (s : String) : SentInFull (writeText s) (fullText s) := by
  by_cases hlen : (Utf8.encode s).length ≤ Bytes.maxPrefixed
  · left
    rw [writeText, Bytes.behindLength, List.take_of_length_le hlen, fullText]
  · right
    rw [writeText, Bytes.behindLength, fullText]
    simp only [List.length_append, Bytes.length_be16, List.length_take, Frame.maxPayload,
      Bytes.maxPrefixed] at hlen ⊢
    omega

theorem text_fullText {s : String} (h : (fullText s).length ≤ Frame.maxPayload) (rest : Bytes) :
    Reader.text (fullText s ++ rest) = (some s, rest) := by
  rw [length_fullText] at h
  rw [fullText, List.append_assoc]
  exact Reader.text_append (Nat.le_trans (Nat.le_add_left _ 2) h)

/-- A password as it comes: an empty one is none. -/
def receivedPassword (p : Option String) : Option String := if p = some "" then none else p

theorem readPassword_fullText {p : Option String}
    (h : (fullText (p.getD "")).length ≤ Frame.maxPayload) (rest : Bytes) :
    readPassword (fullText (p.getD "") ++ rest) = (some (receivedPassword p), rest) := by
  rw [readPassword, Reader.bind_of_some (text_fullText h rest)]
  cases p with
  | none => rfl
  | some s =>
    by_cases hs : s = ""
    · subst hs
      rfl
    · simp [receivedPassword, hs]

@[simp] theorem Mode.ofCode?_code (m : Mode) : Mode.ofCode? m.code = some m := by
  cases m <;> rfl

@[simp] theorem Phase.ofCode?_code (p : Phase) : Phase.ofCode? p.code = some p := by
  cases p <;> rfl

@[simp] theorem Visibility.ofCode?_code (v : Visibility) : Visibility.ofCode? v.code = some v := by
  cases v <;> rfl

/-- The bytes of a room, nothing cut. -/
def full (r : Room) : Bytes :=
  Bytes.be32 r.id ++ [r.mode.code] ++ Bytes.be16 r.playerCount ++ Bytes.be16 r.maxPlayers ++
    Bytes.be16 r.port ++ [r.phase.code] ++ Bytes.be32 r.owner ++
    Bytes.ofBool r.passwordProtected ++ [r.visibility.code, r.countdown] ++
    fullText r.name ++ fullText r.inviteCode

theorem write_ne_nil (r : Room) : r.write ≠ [] := by
  simp [write, Bytes.be32, Bytes.bigEndian, Bytes.littleEndian]

theorem full_ne_nil (r : Room) : r.full ≠ [] := by
  simp [full, Bytes.be32, Bytes.bigEndian, Bytes.littleEndian]

theorem sentInFull (r : Room) : SentInFull r.write r.full :=
  ((SentInFull.refl _).append (sentInFull_text r.name)).append (sentInFull_text r.inviteCode)

theorem read_full {r : Room} (h : r.full.length ≤ Frame.maxPayload) (rest : Bytes) :
    read (r.full ++ rest) = (some r, rest) := by
  have hname : (fullText r.name).length ≤ Frame.maxPayload := by
    simp only [full, List.length_append] at h
    omega
  have hcode : (fullText r.inviteCode).length ≤ Frame.maxPayload := by
    simp only [full, List.length_append] at h
    omega
  simp [read, full, Reader.bind_of_some (text_fullText hname _),
    Reader.bind_of_some (text_fullText hcode _)]

end Room

/-! ## Layouts -/

namespace RoomList

def full (m : RoomList) : Bytes :=
  Bytes.be16 (UInt16.ofNat m.rooms.length) ++ m.rooms.flatMap Room.full

theorem sentInFull (m : RoomList) : SentInFull (Message.write m) m.full :=
  SentInFull.counted Room.sentInFull Room.write_ne_nil Room.full_ne_nil

theorem whole_full {m : RoomList} (h : m.full.length ≤ Frame.maxPayload) :
    (Message.read (μ := RoomList)).whole m.full = some m := by
  have hflat : (m.rooms.flatMap Room.full).length ≤ Frame.maxPayload := by
    simp only [full, List.length_append] at h
    omega
  have hcount : (UInt16.ofNat m.rooms.length).toNat = m.rooms.length := by
    have hle := Bytes.length_le_flatMap (l := m.rooms) Room.full_ne_nil
    exact UInt16.toNat_ofNat_of_lt' (Nat.lt_succ_of_le (Nat.le_trans hle hflat))
  have hrooms : ∀ r ∈ m.rooms, ∀ rest, Room.read (r.full ++ rest) = (some r, rest) := by
    intro r hr rest
    have hsub := List.sublist_flatten_of_mem (List.mem_map_of_mem (f := Room.full) hr)
    exact Room.read_full (Nat.le_trans hsub.length_le hflat) rest
  apply Reader.whole_of_append
  intro rest
  simp [Message.read, full, hcount, Reader.times,
    Reader.bind_of_some (Reader.times_append hrooms [] rest)]

end RoomList

namespace CreateRoom

def full (m : CreateRoom) : Bytes :=
  Room.fullText m.name ++ [m.mode.code] ++ Bytes.be16 m.maxPlayers ++ [m.visibility.code] ++
    Room.fullText (m.password.getD "")

theorem sentInFull (m : CreateRoom) : SentInFull (Message.write m) m.full :=
  ((((Room.sentInFull_text m.name).append (SentInFull.refl _)).append (SentInFull.refl _)).append
    (SentInFull.refl _)).append (Room.sentInFull_text _)

theorem whole_full {m : CreateRoom} (h : m.full.length ≤ Frame.maxPayload) :
    (Message.read (μ := CreateRoom)).whole m.full =
      some { m with password := Room.receivedPassword m.password } := by
  have hname : (Room.fullText m.name).length ≤ Frame.maxPayload := by
    simp only [full, List.length_append] at h
    omega
  have hpassword : (Room.fullText (m.password.getD "")).length ≤ Frame.maxPayload := by
    simp only [full, List.length_append] at h
    omega
  apply Reader.whole_of_append
  intro rest
  simp [Message.read, full, Reader.bind_of_some (Room.text_fullText hname _),
    Reader.bind_of_some (Room.readPassword_fullText hpassword _)]

end CreateRoom

namespace JoinRoom

def full (m : JoinRoom) : Bytes :=
  Bytes.be32 m.roomId ++ Bytes.ofBool m.spectator ++ Room.fullText (m.password.getD "")

theorem sentInFull (m : JoinRoom) : SentInFull (Message.write m) m.full :=
  (SentInFull.refl _).append (Room.sentInFull_text _)

theorem whole_full {m : JoinRoom} (h : m.full.length ≤ Frame.maxPayload) :
    (Message.read (μ := JoinRoom)).whole m.full =
      some { m with password := Room.receivedPassword m.password } := by
  have hpassword : (Room.fullText (m.password.getD "")).length ≤ Frame.maxPayload := by
    simp only [full, List.length_append] at h
    omega
  apply Reader.whole_of_append
  intro rest
  simp [Message.read, full, Reader.bind_of_some (Room.readPassword_fullText hpassword _)]

end JoinRoom

namespace JoinFailed

def full (m : JoinFailed) : Bytes :=
  match m.reason with
  | none => []
  | some reason => Room.fullText reason

theorem sentInFull (m : JoinFailed) : SentInFull (Message.write m) m.full := by
  obtain ⟨_ | reason⟩ := m
  · exact SentInFull.refl _
  · exact Room.sentInFull_text reason

theorem whole_full {m : JoinFailed} (h : m.full.length ≤ Frame.maxPayload) :
    (Message.read (μ := JoinFailed)).whole m.full = some m := by
  obtain ⟨_ | reason⟩ := m
  · rfl
  · apply Reader.whole_of_append
    intro rest
    have hsome : (Room.fullText reason ++ rest).length ≠ 0 := by
      rw [List.length_append, Room.length_fullText]
      omega
    simp only [Message.read, full]
    rw [Reader.remaining_bind, if_neg hsome, Reader.bind_of_some (Room.text_fullText h rest)]
    rfl

end JoinFailed

namespace Snapshot

def full (m : Snapshot) : Bytes :=
  Bytes.be32 m.playerEntity ++ Bytes.be16 m.lastInputSequence ++
    (Bytes.be16 (UInt16.ofNat m.entities.length) ++ m.entities.flatMap Sighting.write)

theorem sentInFull (m : Snapshot) : SentInFull (Message.write m) m.full := by
  have hne : ∀ s : Sighting, s.write ≠ [] := by
    intro s
    simp [← List.length_pos_iff, Sighting.wireSize]
  have hlist := SentInFull.counted (l := m.entities) (fun s => SentInFull.refl s.write) hne hne
  have hall := (SentInFull.refl (Bytes.be32 m.playerEntity ++ Bytes.be16 m.lastInputSequence)).append
    hlist
  rw [← List.append_assoc] at hall
  exact hall

theorem whole_full {m : Snapshot} (h : m.full.length ≤ Frame.maxPayload) :
    (Message.read (μ := Snapshot)).whole m.full =
      if m.entities.all fun e => e.position.isFinite then some m else none := by
  have hwrite := (sentInFull m).length_le_iff.2 h
  rw [← (sentInFull m).eq_of_length_le hwrite]
  exact whole_write (length_le_of_fits hwrite)

end Snapshot

theorem RollbackRequest.whole_write (m : RollbackRequest) :
    (Message.read (μ := RollbackRequest)).whole (Message.write m) =
      if m.targetTick ≤ m.currentTick then some m else none := by
  have hread : (Message.read (μ := RollbackRequest)) (Message.write m ++ []) =
      if m.targetTick ≤ m.currentTick then (some m, []) else (none, []) := by
    simp only [Message.read, Message.write, List.append_assoc, Reader.u32_bind]
    by_cases hback : m.targetTick ≤ m.currentTick
    · rw [if_pos hback, if_neg (UInt32.not_lt.2 hback)]
      rfl
    · rw [if_neg hback, if_pos (UInt32.not_le.1 hback)]
      rfl
  rw [List.append_nil] at hread
  rw [Reader.whole, hread]
  split_ifs <;> rfl

theorem DesyncReport.whole_write (m : DesyncReport) :
    (Message.read (μ := DesyncReport)).whole (Message.write m) = some m := by
  apply Reader.whole_of_append
  intro rest
  simp [Message.read, Message.write]

theorem RoomCreated.whole_write (m : RoomCreated) :
    (Message.read (μ := RoomCreated)).whole (Message.write m) = some m := by
  apply Reader.whole_of_append
  intro rest
  simp [Message.read, Message.write]

theorem JoinSuccess.whole_write (m : JoinSuccess) :
    (Message.read (μ := JoinSuccess)).whole (Message.write m) = some m := by
  apply Reader.whole_of_append
  intro rest
  simp [Message.read, Message.write]

/-! ## All types of messages -/

/-- The types of messages. -/
inductive Topic where
  | stateChecksum | rollbackRequest | desyncReport | ping | pong
  | listRooms | roomList | createRoom | roomCreated | joinRoom | joinSuccess | joinFailed
  | snapshot
  deriving DecidableEq

namespace Topic

/-- What a message of the type says. -/
@[reducible] def Content : Topic → Type
  | stateChecksum => StateChecksum
  | rollbackRequest => RollbackRequest
  | desyncReport => DesyncReport
  | ping => Ping
  | pong => Pong
  | listRooms => ListRooms
  | roomList => RoomList
  | createRoom => CreateRoom
  | roomCreated => RoomCreated
  | joinRoom => JoinRoom
  | joinSuccess => JoinSuccess
  | joinFailed => JoinFailed
  | snapshot => Snapshot

instance : (t : Topic) → Message t.Content
  | stateChecksum => inferInstanceAs (Message StateChecksum)
  | rollbackRequest => inferInstanceAs (Message RollbackRequest)
  | desyncReport => inferInstanceAs (Message DesyncReport)
  | ping => inferInstanceAs (Message Ping)
  | pong => inferInstanceAs (Message Pong)
  | listRooms => inferInstanceAs (Message ListRooms)
  | roomList => inferInstanceAs (Message RoomList)
  | createRoom => inferInstanceAs (Message CreateRoom)
  | roomCreated => inferInstanceAs (Message RoomCreated)
  | joinRoom => inferInstanceAs (Message JoinRoom)
  | joinSuccess => inferInstanceAs (Message JoinSuccess)
  | joinFailed => inferInstanceAs (Message JoinFailed)
  | snapshot => inferInstanceAs (Message Snapshot)

/-- The payload of a message, nothing cut; where there is no text and no list,
    nothing ever is. -/
def full : (t : Topic) → t.Content → Bytes
  | roomList, m => RoomList.full m
  | createRoom, m => CreateRoom.full m
  | joinRoom, m => JoinRoom.full m
  | joinFailed, m => JoinFailed.full m
  | snapshot, m => Snapshot.full m
  | _, m => Message.write m

/-- What a receiver gets of a message: an empty password comes as none, and a
    snapshot with a coordinate that is not finite and a request to go forward
    are refused. -/
def received : (t : Topic) → t.Content → Option t.Content
  | createRoom, m => some { m with password := Room.receivedPassword m.password }
  | joinRoom, m => some { m with password := Room.receivedPassword m.password }
  | snapshot, m => if m.entities.all fun e => e.position.isFinite then some m else none
  | rollbackRequest, m => if m.targetTick ≤ m.currentTick then some m else none
  | _, m => some m

theorem sentInFull : (t : Topic) → (m : t.Content) → SentInFull (Message.write m) (t.full m)
  | stateChecksum, _ | rollbackRequest, _ | desyncReport, _ | ping, _ | pong, _ | listRooms, _
  | roomCreated, _ | joinSuccess, _ => SentInFull.refl _
  | roomList, m => RoomList.sentInFull m
  | createRoom, m => CreateRoom.sentInFull m
  | joinRoom, m => JoinRoom.sentInFull m
  | joinFailed, m => JoinFailed.sentInFull m
  | snapshot, m => Snapshot.sentInFull m

/-- **A full payload that fits is read as what there is to be received.** -/
theorem whole_full : (t : Topic) → (m : t.Content) → (t.full m).length ≤ Frame.maxPayload →
    (Message.read (μ := t.Content)).whole (t.full m) = t.received m
  | stateChecksum, m, _ => StateChecksum.whole_write m
  | rollbackRequest, m, _ => RollbackRequest.whole_write m
  | desyncReport, m, _ => DesyncReport.whole_write m
  | ping, _, _ | pong, _, _ | listRooms, _, _ => rfl
  | roomCreated, m, _ => RoomCreated.whole_write m
  | joinSuccess, m, _ => JoinSuccess.whole_write m
  | roomList, _, h => RoomList.whole_full h
  | createRoom, _, h => CreateRoom.whole_full h
  | joinRoom, _, h => JoinRoom.whole_full h
  | joinFailed, _, h => JoinFailed.whole_full h
  | snapshot, _, h => Snapshot.whole_full h

/-- The type that a code belongs to. -/
def ofMessageType? : MessageType → Option Topic
  | .stateChecksum => some stateChecksum
  | .rollbackRequest => some rollbackRequest
  | .desyncDetected => some desyncReport
  | .clientPing => some ping
  | .serverPong => some pong
  | .lobbyListRooms => some listRooms
  | .lobbyRoomList => some roomList
  | .lobbyCreateRoom => some createRoom
  | .lobbyRoomCreated => some roomCreated
  | .lobbyJoinRoom => some joinRoom
  | .lobbyJoinSuccess => some joinSuccess
  | .lobbyJoinFailed => some joinFailed
  | .snapshot => some snapshot
  | _ => none

theorem ofMessageType?_messageType (t : Topic) :
    ofMessageType? (Message.messageType t.Content) = some t := by
  cases t <;> rfl

theorem messageType_injective {t t' : Topic}
    (h : Message.messageType t.Content = Message.messageType t'.Content) : t = t' := by
  have hsome := ofMessageType?_messageType t
  rw [h, ofMessageType?_messageType] at hsome
  exact (Option.some.inj hsome).symm

theorem messageType_ne_input (t : Topic) : Message.messageType t.Content ≠ .input := by
  intro h
  have hsome := ofMessageType?_messageType t
  rw [h] at hsome
  cases hsome

/-- **What is sent, and what becomes of it.**  A message can be sent exactly if
    its full payload fits a frame, and the frame then carries that.  Receivers
    of its type get the message, behind a header that names its type, direction,
    sequence and tick; receivers of all other types and of input packets get
    nothing. -/
theorem delivered (t : Topic) (m : t.Content) (sequence : UInt16) (tick : UInt32) :
    ((∃ data, Message.encode m sequence tick = .ok data) ↔ (t.full m).length ≤ 65535) ∧
    ∀ data, Message.encode m sequence tick = .ok data →
      (∃ h : Header, h.messageType = Message.messageType t.Content ∧
        h.direction = Message.direction t.Content ∧ h.sequence = sequence ∧ h.tick = tick ∧
        Frame.decode data = .ok ⟨h, t.full m⟩ ∧
        Message.decode data = (t.received m).map fun m' => (h, m')) ∧
      (∀ t', t' ≠ t → Message.decode (μ := t'.Content) data = none) ∧
      InputPacket.decode data = none := by
  have hfull := t.sentInFull m
  constructor
  · rw [show (65535 : ℕ) = Frame.maxPayload from rfl, ← hfull.length_le_iff]
    constructor
    · rintro ⟨data, hdata⟩
      exact (Message.frame_of_encode hdata).1
    · intro hlen
      exact ⟨_, if_pos hlen⟩
  · intro data hdata
    obtain ⟨hlen, hframe⟩ := Message.frame_of_encode hdata
    have hwrite := hfull.eq_of_length_le hlen
    refine ⟨⟨Message.sentHeader m sequence tick, rfl, rfl, rfl, rfl, ?_, ?_⟩, ?_, ?_⟩
    · rw [hframe, hwrite]
    · rw [Message.decode_encode hdata, hwrite, t.whole_full m (hwrite ▸ hlen)]
    · intro t' hne
      exact Message.decode_eq_none_of_kind hdata fun h => hne (messageType_injective h).symm
    · exact InputPacket.decode_eq_none_of_message hdata t.messageType_ne_input

end Topic

end Netplay
