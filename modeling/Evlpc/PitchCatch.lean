import Evlpc.Library.Streams
import Evlpc.Library.Words
import Mathlib.Tactic.ByContra

/-!
# Pitch and catch

`blogsender` pitches to `blogserver` over a stream socket: a bullet that says how many
bytes will come, which the catcher sends back, then these bytes in chunks of the size of
the buffers, and then the catcher's bullet with its throughput. `send_data` and `recv_data`
call again until they have moved everything. Only the last `send` of the catcher is not
repeated, so it may leave some of its bullet behind when the socket is closed.
-/

namespace Evlpc.PitchCatch

open Library Streams Words

/-- `struct bullet`. -/
structure Bullet where
  bytes : Int32
  throughput : Int32
  magic : Int32

/-- `BUFSIZE`. -/
def bufsize : Int := 32 * 1024 - 1

/-- `sizeof (struct bullet)`. -/
def bulletSize : Nat := 12

/-- The bullet in memory. -/
def Bullet.chars (bullet : Bullet) : List UInt8 :=
  word32 bullet.bytes.toUInt32 ++ word32 bullet.throughput.toUInt32 ++
    word32 bullet.magic.toUInt32

/-- What memory holds as a bullet. -/
def readBullet (chars : List UInt8) : Bullet where
  bytes := (readWord32 chars).toInt32
  throughput := (readWord32 (chars.drop 4)).toInt32
  magic := (readWord32 (chars.drop 8)).toInt32

/-- What `pitch` works with: its buffer, and the number of bytes to send. -/
structure Pitcher where
  buffer : List UInt8
  bufferSize : buffer.length = 32767
  bytes : Int32

/-- What `catch` works with: the throughput it measures, and how much its last call
sends. -/
structure Catcher where
  throughput : Int32
  cut : Nat
  cutPositive : 0 < cut
  cutWithin : cut ≤ bulletSize

/-- Where `pitch` is. -/
inductive Pitch where
  | sendingBullet (left : List UInt8)
  | receivingBullet (got : List UInt8)
  | sendingData (i total : Int) (left : List UInt8)
  | receivingEnd (total : Int) (got : List UInt8)
  | finished (total : Int) (bullet : Bullet)

/-- Where `catch` is, with the data that it got. -/
inductive Catch where
  | receivingBullet (got : List UInt8)
  | rejected (bullet : Bullet)
  | sendingBullet (bullet : Bullet) (left : List UInt8)
  | receivingData (bullet : Bullet) (i total : Int) (got data : List UInt8)
  | sendingEnd (total : Int) (left data : List UInt8)
  | closed (total : Int) (data : List UInt8)

/-- `cc` of the data loops: a buffer, or what is left if that is less. -/
def chunk (bytes i : Int) : Int :=
  let size := if bytes < bufsize then bytes else bufsize
  if size < i then size else i

/-- The bullet that synchronizes both sides. -/
def Pitcher.bullet (pitcher : Pitcher) : Bullet := ⟨pitcher.bytes, 0, 12345⟩

/-- The head of the data loop of `pitch`. -/
def Pitcher.dataLoop (pitcher : Pitcher) (i total : Int) : Pitch :=
  if 0 < i then
    .sendingData i total (pitcher.buffer.take (chunk pitcher.bytes.toInt i).toNat)
  else .receivingEnd total []

/-- What `pitch` calls next. -/
def Pitcher.call (pitcher : Pitcher) : Pitch → Call UInt8 Pitch
  | .sendingBullet left =>
    .send left fun left => if left = [] then .receivingBullet [] else .sendingBullet left
  | .receivingBullet got =>
    .recv (bulletSize - got.length) fun more =>
      if (got ++ more).length < bulletSize then .receivingBullet (got ++ more)
      else pitcher.dataLoop pitcher.bytes.toInt 0
  | .sendingData i total left =>
    .send left fun left =>
      if left = [] then
        pitcher.dataLoop (i - chunk pitcher.bytes.toInt i) (total + chunk pitcher.bytes.toInt i)
      else .sendingData i total left
  | .receivingEnd total got =>
    .recv (bulletSize - got.length) fun more =>
      if (got ++ more).length < bulletSize then .receivingEnd total (got ++ more)
      else .finished total (readBullet (got ++ more))
  | .finished _ _ => .stop

/-- The bullet with the throughput. -/
def Catcher.endBullet (catcher : Catcher) (bullet : Bullet) : Bullet :=
  { bullet with throughput := catcher.throughput }

/-- The head of the data loop of `catch`. -/
def Catcher.dataLoop (catcher : Catcher) (bullet : Bullet) (i total : Int) (data : List UInt8) :
    Catch :=
  if 0 < i then .receivingData bullet i total [] data
  else .sendingEnd total ((catcher.endBullet bullet).chars.take catcher.cut) data

/-- What `catch` does with the bullet it got. -/
def checkMagic (bullet : Bullet) : Catch :=
  if bullet.magic ≠ 12345 then .rejected bullet else .sendingBullet bullet bullet.chars

/-- What `catch` calls next. The last call is made once, and then the socket is closed,
whatever it returns. Its `cut` bytes need not find room at one time, and the kernel then
moves them in several steps while the call blocks. So the definition stays at this call
until they are moved, as it does at the calls that the source repeats. -/
def Catcher.call (catcher : Catcher) : Catch → Call UInt8 Catch
  | .receivingBullet got =>
    .recv (bulletSize - got.length) fun more =>
      if (got ++ more).length < bulletSize then .receivingBullet (got ++ more)
      else checkMagic (readBullet (got ++ more))
  | .rejected _ => .stop
  | .sendingBullet bullet left =>
    .send left fun left =>
      if left = [] then catcher.dataLoop bullet bullet.bytes.toInt 0 []
      else .sendingBullet bullet left
  | .receivingData bullet i total got data =>
    .recv ((chunk bullet.bytes.toInt i).toNat - got.length) fun more =>
      if (got ++ more).length < (chunk bullet.bytes.toInt i).toNat then
        .receivingData bullet i total (got ++ more) data
      else
        catcher.dataLoop bullet (i - chunk bullet.bytes.toInt i)
          (total + chunk bullet.bytes.toInt i) (data ++ (got ++ more))
  | .sendingEnd total left data =>
    .send left fun left => if left = [] then .closed total data else .sendingEnd total left data
  | .closed _ _ => .stop

/-- The connection is accepted. -/
def Pitcher.connected (pitcher : Pitcher) : Pair UInt8 Pitch Catch where
  left := .sendingBullet pitcher.bullet.chars
  right := .receivingBullet []
  toRight := []
  toLeft := []

/-- The data that `pitch` sends: its buffer again and again, to the number of bytes. -/
def Pitcher.data (pitcher : Pitcher) : List UInt8 :=
  (List.range pitcher.bytes.toInt.toNat).map fun index => pitcher.buffer.getD (index % 32767) 0

/-- Where the programs end. -/
def outcome (pitcher : Pitcher) (catcher : Catcher) : Pair UInt8 Pitch Catch where
  left :=
    if catcher.cut < bulletSize then
      .receivingEnd pitcher.data.length
        ((catcher.endBullet pitcher.bullet).chars.take catcher.cut)
    else .finished pitcher.data.length (catcher.endBullet pitcher.bullet)
  right := .closed pitcher.data.length pitcher.data
  toRight := []
  toLeft := []

section Bullets

variable (bullet : Bullet)

/-- A bullet has the size of its structure. -/
theorem chars_length : bullet.chars.length = bulletSize := by
  rw [Bullet.chars, List.length_append, List.length_append, word32_length, word32_length,
    word32_length]
  rfl

/-- A bullet is read as it was written. -/
theorem readBullet_chars : readBullet bullet.chars = bullet := by
  have bytes : readWord32 bullet.chars = bullet.bytes.toUInt32 := by
    rw [Bullet.chars, List.append_assoc]
    exact read_word32 _ _
  have throughput : readWord32 (bullet.chars.drop 4) = bullet.throughput.toUInt32 := by
    have behind : bullet.chars.drop 4 =
        word32 bullet.throughput.toUInt32 ++ word32 bullet.magic.toUInt32 := by
      rw [Bullet.chars, List.append_assoc]
      exact List.drop_left' (word32_length _)
    rw [behind]
    exact read_word32 _ _
  have magic : readWord32 (bullet.chars.drop 8) = bullet.magic.toUInt32 := by
    have behind : bullet.chars.drop 8 = word32 bullet.magic.toUInt32 :=
      List.drop_left' (by rw [List.length_append, word32_length, word32_length])
    have read := read_word32 bullet.magic.toUInt32 []
    rw [behind]
    rwa [List.append_nil] at read
  rw [readBullet, bytes, throughput, magic]
  rfl

end Bullets

section Looping

variable (pitcher : Pitcher) (catcher : Catcher)

/-- A loop that receives goes on with what it has. -/
theorem recv_again {σ : Type} (size : Nat) (got : List UInt8) (waiting done : List UInt8 → σ)
    (call : σ → Call UInt8 σ)
    (calls : ∀ got, call (waiting got) = .recv (size - got.length) fun more =>
      if (got ++ more).length < size then waiting (got ++ more) else done (got ++ more))
    (bytes : List UInt8) (less : bytes.length < size - got.length) :
    call (if (got ++ bytes).length < size then waiting (got ++ bytes) else done (got ++ bytes)) =
      .recv (size - got.length - bytes.length) fun more =>
        if (got ++ (bytes ++ more)).length < size then waiting (got ++ (bytes ++ more))
        else done (got ++ (bytes ++ more)) := by
  have short : (got ++ bytes).length < size := by
    rw [List.length_append]
    omega
  rw [if_pos short, calls, List.length_append, Nat.sub_sub]
  simp only [List.append_assoc]

/-- The calls of `pitch` are made again until everything has moved. -/
theorem pitch_loops : Loops pitcher.call := by
  constructor
  · intro state bytes left sending rest notEmpty _
    cases state with
    | sendingBullet remaining =>
      obtain ⟨rfl, rfl⟩ := Call.send.inj sending
      simp only []
      rw [if_neg notEmpty]
      rfl
    | sendingData i total remaining =>
      obtain ⟨rfl, rfl⟩ := Call.send.inj sending
      simp only []
      rw [if_neg notEmpty]
      rfl
    | receivingBullet got => cases sending
    | receivingEnd total got => cases sending
    | finished total bullet => cases sending
  · intro state count got receiving bytes less
    cases state with
    | sendingBullet remaining => cases receiving
    | sendingData i total remaining => cases receiving
    | receivingBullet held =>
      obtain ⟨rfl, rfl⟩ := Call.recv.inj receiving
      exact recv_again bulletSize held .receivingBullet
        (fun _ => pitcher.dataLoop pitcher.bytes.toInt 0) pitcher.call (fun _ => rfl) bytes less
    | receivingEnd total held =>
      obtain ⟨rfl, rfl⟩ := Call.recv.inj receiving
      exact recv_again bulletSize held (.receivingEnd total)
        (fun chars => .finished total (readBullet chars)) pitcher.call (fun _ => rfl) bytes less
    | finished total bullet => cases receiving

/-- So are those of `catch`, up to what its last call sends. -/
theorem catch_loops : Loops catcher.call := by
  constructor
  · intro state bytes left sending rest notEmpty _
    cases state with
    | receivingBullet got => cases sending
    | rejected bullet => cases sending
    | sendingBullet bullet remaining =>
      obtain ⟨rfl, rfl⟩ := Call.send.inj sending
      simp only []
      rw [if_neg notEmpty]
      rfl
    | receivingData bullet i total got data => cases sending
    | sendingEnd total remaining data =>
      obtain ⟨rfl, rfl⟩ := Call.send.inj sending
      simp only []
      rw [if_neg notEmpty]
      rfl
    | closed total data => cases sending
  · intro state count got receiving bytes less
    cases state with
    | receivingBullet held =>
      obtain ⟨rfl, rfl⟩ := Call.recv.inj receiving
      exact recv_again bulletSize held .receivingBullet (fun chars => checkMagic (readBullet chars))
        catcher.call (fun _ => rfl) bytes less
    | rejected bullet => cases receiving
    | sendingBullet bullet remaining => cases receiving
    | receivingData bullet i total held data =>
      obtain ⟨rfl, rfl⟩ := Call.recv.inj receiving
      exact recv_again (chunk bullet.bytes.toInt i).toNat held
        (fun got => .receivingData bullet i total got data)
        (fun chars => catcher.dataLoop bullet (i - chunk bullet.bytes.toInt i)
          (total + chunk bullet.bytes.toInt i) (data ++ chars))
        catcher.call (fun _ => rfl) bytes less
    | sendingEnd total remaining data => cases receiving
    | closed total data => cases receiving

end Looping

section Exchanging

variable (pitcher : Pitcher) (catcher : Catcher)

/-- A loop that sends has sent everything when it is left. -/
theorem sends_whole {σ : Type} {call : σ → Call UInt8 σ} (loops : Loops call) (state final : σ)
    (bytes : List UInt8) (left : List UInt8 → σ) (sending : call state = .send bytes left)
    (notEmpty : bytes ≠ []) (leaves : left [] = final) :
    Sends (byteView call) state bytes final := by
  have sends := sends_of_call loops state bytes bytes [] left sending (List.append_nil bytes)
    notEmpty
  rwa [leaves] at sends

/-- A bullet has some bytes. -/
theorem chars_notEmpty (bullet : Bullet) : bullet.chars ≠ [] := by
  intro empty
  have length := chars_length bullet
  rw [empty] at length
  cases length

/-- The bullet goes to the catcher. -/
theorem bullet_there :
    Sends (byteView pitcher.call) (.sendingBullet pitcher.bullet.chars) pitcher.bullet.chars
      (.receivingBullet []) ∧
    Receives (byteView catcher.call) (.receivingBullet []) pitcher.bullet.chars
      (.sendingBullet pitcher.bullet pitcher.bullet.chars) := by
  constructor
  · exact sends_whole (pitch_loops pitcher) _ _ _ _ rfl (chars_notEmpty _) rfl
  · have length := chars_length pitcher.bullet
    have receives := receives_of_call (catch_loops catcher) (.receivingBullet []) bulletSize
      pitcher.bullet.chars _ rfl (Nat.le_of_eq length) (chars_notEmpty _)
    have done : ¬ ([] ++ pitcher.bullet.chars).length < bulletSize := by
      rw [List.nil_append, length]
      exact Nat.lt_irrefl bulletSize
    have magic : checkMagic pitcher.bullet =
        .sendingBullet pitcher.bullet pitcher.bullet.chars := if_neg fun bad => bad rfl
    rw [if_neg done, List.nil_append, readBullet_chars, magic] at receives
    exact receives

/-- The bullet comes back. -/
theorem bullet_back :
    Sends (byteView catcher.call) (.sendingBullet pitcher.bullet pitcher.bullet.chars)
      pitcher.bullet.chars (catcher.dataLoop pitcher.bullet pitcher.bytes.toInt 0 []) ∧
    Receives (byteView pitcher.call) (.receivingBullet []) pitcher.bullet.chars
      (pitcher.dataLoop pitcher.bytes.toInt 0) := by
  constructor
  · exact sends_whole (catch_loops catcher) _ _ _ _ rfl (chars_notEmpty _) rfl
  · have length := chars_length pitcher.bullet
    have receives := receives_of_call (pitch_loops pitcher) (.receivingBullet []) bulletSize
      pitcher.bullet.chars _ rfl (Nat.le_of_eq length) (chars_notEmpty _)
    have done : ¬ ([] ++ pitcher.bullet.chars).length < bulletSize := by
      rw [List.nil_append, length]
      exact Nat.lt_irrefl bulletSize
    rw [if_neg done] at receives
    exact receives

/-- So many of the data from an index on. -/
def Pitcher.dataFrom (pitcher : Pitcher) (index count : Nat) : List UInt8 :=
  (List.range' index count).map fun index => pitcher.buffer.getD (index % 32767) 0

/-- A chunk is a buffer, or what is left. -/
theorem chunk_min (i : Nat) (more : 0 < i) (within : i ≤ pitcher.bytes.toInt.toNat) :
    chunk pitcher.bytes.toInt i = (min 32767 i : Nat) := by
  have size : bufsize = 32767 := rfl
  rw [chunk, size]
  split <;> split <;> omega

/-- From the start of a buffer on, a chunk is the start of the buffer. -/
theorem dataFrom_aligned (index count : Nat) (aligned : index % 32767 = 0)
    (within : count ≤ 32767) : pitcher.dataFrom index count = pitcher.buffer.take count := by
  have size := pitcher.bufferSize
  apply List.ext_getElem
  · rw [Pitcher.dataFrom, List.length_map, List.length_range', List.length_take, size]
    omega
  · intro position inData inBuffer
    rw [Pitcher.dataFrom, List.length_map, List.length_range'] at inData
    have place : (index + 1 * position) % 32767 = position := by omega
    have inside : position < pitcher.buffer.length := by omega
    simp only [Pitcher.dataFrom]
    rw [List.getElem_map, List.getElem_range', place, List.getElem_take,
      List.getD_eq_getElem?_getD, List.getElem?_eq_getElem inside, Option.getD_some]

/-- The data from an index on can be cut anywhere. -/
theorem dataFrom_append (index first second : Nat) :
    pitcher.dataFrom index (first + second) =
      pitcher.dataFrom index first ++ pitcher.dataFrom (index + first) second := by
  rw [Pitcher.dataFrom, Pitcher.dataFrom, Pitcher.dataFrom, ← List.map_append,
    List.range'_append_1]

/-- The data go to the catcher chunk by chunk. -/
theorem data_there (i total : Nat) (data : List UInt8)
    (whole : i + total = pitcher.bytes.toInt.toNat) (aligned : total % 32767 = 0 ∨ i = 0) :
    Sends (byteView pitcher.call) (pitcher.dataLoop i total) (pitcher.dataFrom total i)
      (.receivingEnd (i + total : Nat) []) ∧
    Receives (byteView catcher.call) (catcher.dataLoop pitcher.bullet i total data)
      (pitcher.dataFrom total i)
      (.sendingEnd (i + total : Nat)
        ((catcher.endBullet pitcher.bullet).chars.take catcher.cut)
        (data ++ pitcher.dataFrom total i)) := by
  induction i using Nat.strong_induction_on generalizing total data with
  | _ i inductionHypothesis =>
    by_cases more : 0 < i
    · have size : min 32767 i ≤ i := Nat.min_le_right 32767 i
      have fits : min 32767 i ≤ 32767 := Nat.min_le_left 32767 i
      have positive : 0 < min 32767 i := by omega
      have within : i ≤ pitcher.bytes.toInt.toNat := by omega
      have isChunk := chunk_min pitcher i more within
      have counts : (chunk pitcher.bytes.toInt i).toNat = min 32767 i := by
        rw [isChunk, Int.toNat_natCast]
      have less : (i : Int) - chunk pitcher.bytes.toInt i = (i - min 32767 i : Nat) := by
        rw [isChunk]
        omega
      have further : (total : Int) + chunk pitcher.bytes.toInt i = (total + min 32767 i : Nat) := by
        rw [isChunk]
        omega
      have isStart : total % 32767 = 0 := by omega
      have first := dataFrom_aligned pitcher total (min 32767 i) isStart fits
      have parts : pitcher.dataFrom total i = pitcher.dataFrom total (min 32767 i) ++
          pitcher.dataFrom (total + min 32767 i) (i - min 32767 i) := by
        rw [← dataFrom_append]
        congr 1
        omega
      have length : (pitcher.dataFrom total (min 32767 i)).length = min 32767 i := by
        rw [Pitcher.dataFrom, List.length_map, List.length_range']
      have notEmpty : pitcher.dataFrom total (min 32767 i) ≠ [] := by
        intro empty
        rw [empty] at length
        exact Nat.ne_of_gt positive length.symm
      have rest := inductionHypothesis (i - min 32767 i) (by omega) (total + min 32767 i)
        (data ++ pitcher.dataFrom total (min 32767 i)) (by omega) (by omega)
      have ends : i - min 32767 i + (total + min 32767 i) = i + total := by omega
      rw [ends, List.append_assoc] at rest
      have begins : (0 : Int) < i := by omega
      rw [Pitcher.dataLoop, Catcher.dataLoop, if_pos begins, if_pos begins, counts, ← first, parts]
      constructor
      · refine sends_append (sends_whole (pitch_loops pitcher) _ _ _ _ rfl notEmpty ?_) rest.1
        simp only [if_pos]
        rw [less, further]
      · refine receives_append ?_ rest.2
        have receives := receives_of_call (catch_loops catcher)
          (.receivingData pitcher.bullet i total [] data) _
          (pitcher.dataFrom total (min 32767 i)) _ rfl
          (by rw [length, List.length_nil, Nat.sub_zero]; exact Nat.le_of_eq counts.symm) notEmpty
        have done : ¬ ([] ++ pitcher.dataFrom total (min 32767 i)).length <
            (chunk pitcher.bullet.bytes.toInt i).toNat := by
          rw [List.nil_append, length]
          exact Nat.not_lt.mpr (Nat.le_of_eq counts)
        rw [if_neg done, List.nil_append] at receives
        rw [← less, ← further]
        exact receives
    · obtain rfl : i = 0 := by omega
      have nothing : pitcher.dataFrom total 0 = [] := rfl
      rw [nothing, List.append_nil, Nat.zero_add]
      exact ⟨rfl, rfl⟩

/-- All of the data are those from the start on. -/
theorem data_from_start : pitcher.dataFrom 0 pitcher.bytes.toInt.toNat = pitcher.data := by
  rw [Pitcher.dataFrom, Pitcher.data, List.range_eq_range']

/-- There are as many data as the bullet says, none for a negative number. -/
theorem data_length : pitcher.data.length = pitcher.bytes.toInt.toNat := by
  rw [Pitcher.data, List.length_map, List.length_range]

/-- The heads of the data loops do not depend on how a number without bytes is written. -/
theorem loops_start :
    pitcher.dataLoop pitcher.bytes.toInt 0 =
        pitcher.dataLoop (pitcher.bytes.toInt.toNat : Nat) (0 : Nat) ∧
      catcher.dataLoop pitcher.bullet pitcher.bytes.toInt 0 [] =
        catcher.dataLoop pitcher.bullet (pitcher.bytes.toInt.toNat : Nat) (0 : Nat) [] := by
  by_cases more : 0 < pitcher.bytes.toInt
  · have same : (pitcher.bytes.toInt.toNat : Int) = pitcher.bytes.toInt :=
      Int.toNat_of_nonneg (Int.le_of_lt more)
    rw [same]
    exact ⟨rfl, rfl⟩
  · have nothing : ¬ (0 : Int) < (pitcher.bytes.toInt.toNat : Nat) := by omega
    rw [Pitcher.dataLoop, Pitcher.dataLoop, Catcher.dataLoop, Catcher.dataLoop, if_neg more,
      if_neg more, if_neg nothing, if_neg nothing]
    exact ⟨rfl, rfl⟩

/-- The last bullet goes as far as the last call sends it. -/
theorem end_back (total : Int) (data : List UInt8) :
    Sends (byteView catcher.call)
      (.sendingEnd total ((catcher.endBullet pitcher.bullet).chars.take catcher.cut) data)
      ((catcher.endBullet pitcher.bullet).chars.take catcher.cut) (.closed total data) ∧
    Receives (byteView pitcher.call) (.receivingEnd total [])
      ((catcher.endBullet pitcher.bullet).chars.take catcher.cut)
      (if catcher.cut < bulletSize then
        .receivingEnd total ((catcher.endBullet pitcher.bullet).chars.take catcher.cut)
      else .finished total (catcher.endBullet pitcher.bullet)) := by
  have size := chars_length (catcher.endBullet pitcher.bullet)
  have within := catcher.cutWithin
  have length : ((catcher.endBullet pitcher.bullet).chars.take catcher.cut).length =
      catcher.cut := by
    rw [List.length_take, size]
    exact Nat.min_eq_left within
  have notEmpty : (catcher.endBullet pitcher.bullet).chars.take catcher.cut ≠ [] := by
    intro empty
    rw [empty] at length
    exact Nat.ne_of_gt catcher.cutPositive length.symm
  constructor
  · exact sends_whole (catch_loops catcher) _ _ _ _ rfl notEmpty rfl
  · have receives := receives_of_call (pitch_loops pitcher) (.receivingEnd total []) bulletSize
      _ _ rfl (by rw [length]; exact within) notEmpty
    rw [List.nil_append, length] at receives
    by_cases short : catcher.cut < bulletSize
    · rwa [if_pos short] at receives ⊢
    · have all : (catcher.endBullet pitcher.bullet).chars.take catcher.cut =
          (catcher.endBullet pitcher.bullet).chars :=
        List.take_of_length_le (by omega)
      rw [if_neg short, all, readBullet_chars] at receives
      rwa [if_neg short, all]

variable (roomRight roomLeft : Nat)

/-- One way to mix the calls: every byte is received as soon as it is sent. -/
theorem outcome_reached (hasRoom : 0 < roomRight) (hasRoomBack : 0 < roomLeft) :
    Steps (Step (byteView pitcher.call) (byteView catcher.call) roomRight roomLeft)
      (2 * (24 + pitcher.data.length + catcher.cut)) pitcher.connected
      (outcome pitcher catcher) := by
  have there := bullet_there pitcher catcher
  have back := bullet_back pitcher catcher
  have loops := loops_start pitcher catcher
  have data := data_there pitcher catcher pitcher.bytes.toInt.toNat 0 [] rfl (Or.inl rfl)
  rw [data_from_start, List.nil_append, Nat.add_zero] at data
  rw [loops.1, loops.2] at back
  have last := end_back pitcher catcher pitcher.bytes.toInt.toNat pitcher.data
  have first := transfer (byteView pitcher.call) (byteView catcher.call) roomRight roomLeft
    _ _ _ _ _ [] hasRoom there.1 there.2
  have second := transfer_back (byteView pitcher.call) (byteView catcher.call) roomRight roomLeft
    _ _ _ _ _ [] hasRoomBack back.1 back.2
  have third := transfer (byteView pitcher.call) (byteView catcher.call) roomRight roomLeft
    _ _ _ _ _ [] hasRoom data.1 data.2
  have fourth := transfer_back (byteView pitcher.call) (byteView catcher.call) roomRight roomLeft
    _ _ _ _ _ [] hasRoomBack last.1 last.2
  have all := steps_append first (steps_append second (steps_append third fourth))
  have size : pitcher.bullet.chars.length = 12 := chars_length pitcher.bullet
  have within : catcher.cut ≤ 12 := catcher.cutWithin
  have endSize : ((catcher.endBullet pitcher.bullet).chars.take catcher.cut).length =
      catcher.cut := by
    rw [List.length_take, chars_length]
    exact Nat.min_eq_left catcher.cutWithin
  have count : 2 * pitcher.bullet.chars.length + (2 * pitcher.bullet.chars.length +
      (2 * pitcher.data.length +
        2 * ((catcher.endBullet pitcher.bullet).chars.take catcher.cut).length)) =
      2 * (24 + pitcher.data.length + catcher.cut) := by
    rw [size, endSize]
    omega
  rw [count] at all
  have ending : outcome pitcher catcher =
      { left :=
          if catcher.cut < bulletSize then
            .receivingEnd (pitcher.bytes.toInt.toNat : Nat)
              ((catcher.endBullet pitcher.bullet).chars.take catcher.cut)
          else .finished (pitcher.bytes.toInt.toNat : Nat) (catcher.endBullet pitcher.bullet)
        right := .closed (pitcher.bytes.toInt.toNat : Nat) pitcher.data
        toRight := []
        toLeft := [] } := by
    rw [outcome, data_length pitcher]
  rw [ending]
  exact all

/-- There is nothing left to do. -/
theorem outcome_stuck :
    Stuck (Step (byteView pitcher.call) (byteView catcher.call) roomRight roomLeft)
      (outcome pitcher catcher) := by
  rintro next (left | right)
  · rcases stepLeft_cases _ _ _ _ left with ⟨byte, later, sends, -, -⟩ | ⟨byte, rest, later, -,
      coming, -⟩
    · simp only [outcome] at sends
      by_cases short : catcher.cut < bulletSize
      · rw [if_pos short, byteView, Pitcher.call] at sends
        split at sends
        · next calling => cases calling
        · cases sends
        · cases sends
      · rw [if_neg short] at sends
        cases sends
    · cases coming
  · rcases stepRight_cases _ _ _ _ right with ⟨byte, later, sends, -, -⟩ | ⟨byte, rest, later, -,
      coming, -⟩
    · cases sends
    · cases coming

/-- A pitcher that has finished stays where it is. -/
theorem finished_stays {calls : Nat} {pair final : Pair UInt8 Pitch Catch} (total : Int)
    (bullet : Bullet) (done : pair.left = .finished total bullet)
    (run : Steps (CallStep pitcher.call catcher.call roomRight roomLeft) calls pair final) :
    final.left = .finished total bullet := by
  induction calls generalizing pair with
  | zero =>
    obtain rfl : pair = final := run
    exact done
  | succ calls inductionHypothesis =>
    obtain ⟨next, ⟨cc, left | right⟩, rest⟩ := run
    · rw [callLeft, done] at left
      cases left
    · obtain ⟨swapped, called, rfl⟩ := Option.map_eq_some_iff.mp right
      refine inductionHypothesis ?_ rest
      rw [callLeft] at called
      split at called
      · split at called
        · obtain rfl := Option.some.inj called
          exact done
        · cases called
      · split at called
        · obtain rfl := Option.some.inj called
          exact done
        · cases called
      · cases called

/-- However the calls of both sides are mixed and however much each of them moves, a
session makes only so many calls and can always go on to its outcome: the catcher has got
exactly the bytes of the pitcher. The pitcher finishes, with the bullet of the catcher,
only if the last call sends all of it. Otherwise it is left with a call that gets nothing
and is made again for ever. -/
theorem pitch_and_catch (hasRoom : 0 < roomRight) (hasRoomBack : 0 < roomLeft) (calls : Nat)
    (reached : Pair UInt8 Pitch Catch)
    (run : Steps (CallStep pitcher.call catcher.call roomRight roomLeft) calls pitcher.connected
      reached) :
    calls ≤ 2 * (24 + pitcher.data.length + catcher.cut) ∧
    (∃ left, Steps (CallStep pitcher.call catcher.call roomRight roomLeft) left reached
      (outcome pitcher catcher)) ∧
    ((∀ next, ¬ CallStep pitcher.call catcher.call roomRight roomLeft reached next) →
      reached = outcome pitcher catcher) ∧
    (∀ total bullet, reached.left = .finished total bullet →
      catcher.cut = bulletSize ∧ total = pitcher.data.length ∧
        bullet = catcher.endBullet pitcher.bullet) ∧
    (catcher.cut < bulletSize → ∃ got,
      pitcher.call (outcome pitcher catcher).left = .recv (bulletSize - catcher.cut) got ∧
        got [] = (outcome pitcher catcher).left) := by
  obtain ⟨within, left, -, rest⟩ := every_call_run_ends (pitch_loops pitcher)
    (catch_loops catcher) (outcome_reached pitcher catcher roomRight roomLeft hasRoom hasRoomBack)
    (outcome_stuck pitcher catcher roomRight roomLeft) run
  have cutWithin := catcher.cutWithin
  refine ⟨within, ⟨left, rest⟩, ?_, ?_, ?_⟩
  · intro noCall
    by_contra different
    obtain ⟨next, called⟩ := not_stuck rest different
    exact noCall next called
  · intro total bullet done
    have still := finished_stays pitcher catcher roomRight roomLeft total bullet done rest
    by_cases short : catcher.cut < bulletSize
    · simp only [outcome] at still
      rw [if_pos short] at still
      cases still
    · simp only [outcome] at still
      rw [if_neg short] at still
      obtain ⟨sameTotal, sameBullet⟩ := Pitch.finished.inj still
      exact ⟨Nat.le_antisymm cutWithin (Nat.le_of_not_lt short), sameTotal.symm, sameBullet.symm⟩
  · intro short
    have length : ((catcher.endBullet pitcher.bullet).chars.take catcher.cut).length =
        catcher.cut := by
      rw [List.length_take, chars_length]
      exact Nat.min_eq_left cutWithin
    simp only [outcome]
    rw [if_pos short, Pitcher.call, length]
    refine ⟨_, rfl, ?_⟩
    rw [List.append_nil, length, if_pos short]

end Exchanging

/-- A pitcher that sends three sevens. -/
def sevensPitcher : Pitcher := ⟨List.replicate 32767 7, List.length_replicate, 3⟩

/-- A catcher whose last call is interrupted after eleven bytes. -/
def interruptedCatcher : Catcher := ⟨1000, 11, by decide, by decide⟩

/-- The pitcher has sent eight bytes of its bullet, and the catcher received five of
them. The session ends with the three sevens at the catcher, and the pitcher waits for
the byte that was cut off. -/
theorem pitch_and_catch_interrupted :
    (outcome sevensPitcher interruptedCatcher).right = .closed 3 [7, 7, 7] ∧
    ∃ reached, Steps (CallStep sevensPitcher.call interruptedCatcher.call 8 8) 2
        sevensPitcher.connected reached ∧
      2 ≤ 2 * (24 + sevensPitcher.data.length + 11) ∧
      (∃ left, Steps (CallStep sevensPitcher.call interruptedCatcher.call 8 8) left reached
        (outcome sevensPitcher interruptedCatcher)) ∧
      ((∀ next, ¬ CallStep sevensPitcher.call interruptedCatcher.call 8 8 reached next) →
        reached = outcome sevensPitcher interruptedCatcher) ∧
      (∀ total bullet, reached.left ≠ .finished total bullet) ∧
      ∃ got, sevensPitcher.call (outcome sevensPitcher interruptedCatcher).left = .recv 1 got ∧
        got [] = (outcome sevensPitcher interruptedCatcher).left := by
  have data : sevensPitcher.data = [7, 7, 7] := rfl
  have calls : ∃ between reached,
      callLeft sevensPitcher.call 8 sevensPitcher.connected 8 = some between ∧
        callRight interruptedCatcher.call 8 between 5 = some reached := ⟨_, _, rfl, rfl⟩
  obtain ⟨between, reached, sent, received⟩ := calls
  have run : Steps (CallStep sevensPitcher.call interruptedCatcher.call 8 8) 2
      sevensPitcher.connected reached :=
    ⟨between, ⟨8, Or.inl sent⟩, reached, ⟨5, Or.inr received⟩, rfl⟩
  obtain ⟨few, goesOn, ended, finished, waits⟩ := pitch_and_catch sevensPitcher
    interruptedCatcher 8 8 (by decide) (by decide) 2 reached run
  have unfinished : ∀ total bullet, reached.left ≠ .finished total bullet := by
    intro total bullet done
    exact absurd (finished total bullet done).1 (by decide)
  exact ⟨by rw [outcome, data]; rfl, reached, run, few, goesOn, ended, unfinished,
    waits (by decide)⟩

end Evlpc.PitchCatch
