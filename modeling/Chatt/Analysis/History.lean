import Chatt.Model.History

/-!
# Round trips of the history codec

Records are written without delimiters; each reader consumes exactly what its writer writes.  In
the other direction an accepted byte string is what the writers write, except for two fields
that are present but unused: the id of an absent file transfer and the bound of a chunk without
one.  `writeMessageFill` and `chunkHeaderFill` write any filler there.
-/

namespace Chatt.History

open Lib Reader List

variable {utf8 : Utf8Check}
variable {bytes rest : Bytes} {roomId : UInt32} (fill : UInt64) {s : Str utf8}

/-- What `write_message` asks of its argument: valid flags, which are zero exactly on a record
that is no mutation; no mutation of a file; and strings whose length fits `u32`. -/
structure ChatMessage.Valid (m : ChatMessage utf8) : Prop where
  flags : flagsValid m.flags = true
  mutation : m.target.isSome = true ↔ m.flags ≠ 0
  noFile : ¬ (m.target.isSome = true ∧ m.fileTransferId.isSome = true)
  nameFits : m.senderName.val.length < 2 ^ 32
  bodyFits : m.body.val.length < 2 ^ 32

/-! ## Parts of a record -/

lemma reads_fromUtf8 (s : Str utf8) : Reads (fromUtf8 s.val) [] s := by
  intro rest
  rw [fromUtf8, dif_pos s.property]
  rfl

lemma fromUtf8_eq_ok {text left : Bytes} (h : fromUtf8 text left = .ok (s, rest)) :
    s.val = text ∧ rest = left := by
  rw [fromUtf8] at h
  split at h
  · cases h
    exact ⟨rfl, rfl⟩
  · cases h

lemma reads_str (fits : s.val.length < 2 ^ 32) : Reads readStr (writeStr s) s := by
  have len : (UInt32.ofNat s.val.length).toNat = s.val.length := UInt32.toNat_ofNat_of_lt' fits
  have text : Reads (take ended (UInt32.ofNat s.val.length).toNat) s.val s.val :=
    reads_take ended len.symm
  have both : Reads readStr (putWord (UInt32.ofNat s.val.length) ++ (s.val ++ [])) s :=
    Reads.bind (reads_word ended _) (Reads.bind text (reads_fromUtf8 s))
  rwa [append_nil] at both

lemma readStr_eq_ok (h : readStr bytes = .ok (s, rest)) :
    bytes = writeStr s ++ rest ∧ s.val.length < 2 ^ 32 := by
  obtain ⟨len, left, word, h⟩ := bind_reads.mp h
  obtain ⟨text, left', taken, h⟩ := bind_reads.mp h
  have bytes_eq := word_eq_ok word
  obtain ⟨left_eq, length⟩ := take_eq_ok taken
  obtain ⟨rfl, rfl⟩ := fromUtf8_eq_ok h
  refine ⟨?_, by rw [length]; exact len.toNat_lt⟩
  rw [bytes_eq, left_eq, writeStr, length, UInt32.ofNat_toNat, append_assoc]

lemma reads_target {flags : Byte} {target : Option UInt64}
    (mutation : target.isSome = true ↔ flags ≠ 0) :
    Reads (readTarget flags) (writeTarget target) target := by
  cases target with
  | none =>
    have zero : ¬ flags ≠ 0 := by simp [← mutation]
    rw [readTarget, if_neg zero]
    exact Reads.pure none
  | some target =>
    rw [readTarget, if_pos (mutation.mp rfl), writeTarget, ← append_nil (putWord target)]
    exact Reads.bind (reads_word ended target) (Reads.pure _)

lemma readTarget_eq_ok {flags : Byte} {target : Option UInt64}
      (h : readTarget flags bytes = .ok (target, rest)) :
    bytes = writeTarget target ++ rest ∧ (target.isSome = true ↔ flags ≠ 0) := by
  rw [readTarget] at h
  split at h
  · next mutation =>
    obtain ⟨id, left, word, h⟩ := bind_reads.mp h
    cases h
    exact ⟨word_eq_ok word, by simpa using mutation⟩
  · next plain =>
    cases h
    exact ⟨rfl, by simpa using plain⟩

/-- The file transfer id with a filler for an absent one. -/
def writeFileFill (fill : UInt64) : Option UInt64 → Bytes
  | some fileTransferId => 1 :: putWord fileTransferId
  | none => 0 :: putWord fill

lemma reads_file (file : Option UInt64) :
    Reads readFileTransferId (writeFileFill fill file) file := by
  cases file with
  | none =>
    have both : Reads readFileTransferId ([0] ++ (putWord fill ++ [])) none :=
      Reads.bind (reads_byte ended 0) (Reads.bind (reads_word ended fill) (Reads.pure _))
    rwa [append_nil] at both
  | some id =>
    have both : Reads readFileTransferId ([1] ++ (putWord id ++ [])) (some id) :=
      Reads.bind (reads_byte ended 1) (Reads.bind (reads_word ended id) (Reads.pure _))
    rwa [append_nil] at both

lemma readFileTransferId_eq_ok {file : Option UInt64}
    (h : readFileTransferId bytes = .ok (file, rest)) :
    ∃ fill, bytes = writeFileFill fill file ++ rest := by
  obtain ⟨tag, left, byte, h⟩ := bind_reads.mp h
  obtain ⟨id, left', read, h⟩ := bind_reads.mp h
  cases h
  rw [byte_eq_ok byte]
  split at read
  · next known =>
    rw [word_eq_ok read]
    rcases known with rfl | rfl
    · exact ⟨id, rfl⟩
    · exact ⟨0, rfl⟩
  · cases read

/-! ## Records -/

/-- `write_message` with a filler for the id of an absent file transfer. -/
def writeMessageFill (fill : UInt64) (m : ChatMessage utf8) : Bytes :=
  recordVersion :: (putWord m.messageId ++ putWord m.roomId ++ putWord m.sender ++
    putWord m.timestampMs ++ m.flags :: (writeTarget m.target ++
    writeFileFill fill m.fileTransferId ++ writeStr m.senderName ++ writeStr m.body))

lemma writeMessage_eq (m : ChatMessage utf8) : writeMessage m = writeMessageFill 0 m := by
  cases m.fileTransferId <;> rfl

lemma length_writeMessage (m : ChatMessage utf8) :
    (writeMessage m).length = encodedMessageLen m := by
  have target : (writeTarget m.target).length = if m.target.isSome then 8 else 0 := by
    cases m.target <;> simp [writeTarget]
  have file : (writeFileTransferId m.fileTransferId).length = 9 := by
    cases m.fileTransferId <;> simp [writeFileTransferId]
  simp only [writeMessage, encodedMessageLen, recordBaseBytes, writeStr, length_cons, length_append,
    length_putWord, width_uint64, width_uint32, target, file]
  omega

variable {m : ChatMessage utf8}

lemma reads_fields (valid : m.Valid) : Reads readFields (writeMessageFill fill m) m := by
  have shape : writeMessageFill fill m = [recordVersion] ++
      (putWord m.messageId ++
      (putWord m.roomId ++ (putWord m.sender ++ (putWord m.timestampMs ++ ([m.flags] ++
      (writeTarget m.target ++ (writeFileFill fill m.fileTransferId ++ (writeStr m.senderName ++
      (writeStr m.body ++ []))))))))) := by
    simp [writeMessageFill, append_assoc]
  rw [shape]
  refine Reads.bind (reads_byte ended _) (Reads.bind_nil (reads_refuse _ (by simp)) ?_)
  refine Reads.bind (reads_word ended _) (Reads.bind (reads_word ended _) ?_)
  refine Reads.bind (reads_word ended _) (Reads.bind (reads_word ended _) ?_)
  refine Reads.bind (reads_byte ended _)
    (Reads.bind_nil (reads_refuse _ (by simp [valid.flags])) ?_)
  refine Reads.bind (reads_target valid.mutation) (Reads.bind (reads_file fill _) ?_)
  refine Reads.bind_nil (reads_refuse _ valid.noFile) ?_
  exact Reads.bind (reads_str valid.nameFits) (Reads.bind (reads_str valid.bodyFits) (Reads.pure _))

lemma readFields_eq_ok (h : readFields bytes = .ok (m, rest)) :
    m.Valid ∧ ∃ fill, bytes = writeMessageFill fill m ++ rest := by
  obtain ⟨version, _, readVersion, h⟩ := bind_reads.mp h
  obtain ⟨_, _, checkVersion, h⟩ := bind_reads.mp h
  obtain ⟨messageId, _, readId, h⟩ := bind_reads.mp h
  obtain ⟨roomId, _, readRoom, h⟩ := bind_reads.mp h
  obtain ⟨sender, _, readSender, h⟩ := bind_reads.mp h
  obtain ⟨timestampMs, _, readTimestamp, h⟩ := bind_reads.mp h
  obtain ⟨flags, _, readFlags, h⟩ := bind_reads.mp h
  obtain ⟨_, _, checkFlags, h⟩ := bind_reads.mp h
  obtain ⟨target, _, target_eq, h⟩ := bind_reads.mp h
  obtain ⟨file, _, file_eq, h⟩ := bind_reads.mp h
  obtain ⟨_, _, checkFile, h⟩ := bind_reads.mp h
  obtain ⟨senderName, _, readName, h⟩ := bind_reads.mp h
  obtain ⟨body, _, readBody, h⟩ := bind_reads.mp h
  cases h
  -- the bytes, put back together from the end
  obtain ⟨rfl, bodyFits⟩ := readStr_eq_ok readBody
  obtain ⟨rfl, nameFits⟩ := readStr_eq_ok readName
  obtain ⟨noFile, rfl⟩ := refuse_eq_ok checkFile
  obtain ⟨fill, rfl⟩ := readFileTransferId_eq_ok file_eq
  obtain ⟨rfl, mutation⟩ := readTarget_eq_ok target_eq
  obtain ⟨flagsOk, rfl⟩ := refuse_eq_ok checkFlags
  obtain rfl := byte_eq_ok readFlags
  obtain rfl := word_eq_ok readTimestamp
  obtain rfl := word_eq_ok readSender
  obtain rfl := word_eq_ok readRoom
  obtain rfl := word_eq_ok readId
  obtain ⟨supported, rfl⟩ := refuse_eq_ok checkVersion
  obtain rfl := byte_eq_ok readVersion
  refine ⟨⟨not_not.mp flagsOk, mutation, noFile, nameFits, bodyFits⟩, fill, ?_⟩
  simp [writeMessageFill, append_assoc, not_not.mp supported]

lemma readMessage_eq (bytes : Bytes) :
    @readMessage utf8 bytes = (readFields bytes >>= fun r =>
      .ok (⟨r.1, bytes.take (bytes.length - r.2.length)⟩, r.2)) := rfl

lemma take_consumed (front rest : Bytes) :
    (front ++ rest).take ((front ++ rest).length - rest.length) = front := by
  rw [length_append, Nat.add_sub_cancel, take_left]

lemma reads_message (valid : m.Valid) :
    Reads readMessage (writeMessageFill fill m) ⟨m, writeMessageFill fill m⟩ := by
  intro rest
  rw [readMessage_eq, reads_fields fill valid rest]
  simp only [Bind.bind, Except.bind, take_consumed]

lemma readMessage_eq_ok {r : HistoryMessageRef utf8} (h : readMessage bytes = .ok (r, rest)) :
    r.message.Valid ∧ bytes = r.raw ++ rest ∧ ∃ fill, r.raw = writeMessageFill fill r.message := by
  obtain ⟨⟨m, left⟩, fields, h⟩ := bind_eq_ok.mp h
  cases h
  obtain ⟨valid, fill, rfl⟩ := readFields_eq_ok fields
  exact ⟨valid, by simp only [take_consumed], fill, take_consumed _ _⟩

/-! ## Chunks -/

variable {messages : List (ChatMessage utf8)}

lemma reads_messages (valid : ∀ m ∈ messages, m.Valid ∧ m.roomId = roomId) :
    Reads (readMessages roomId messages.length) (messages.flatMap writeMessage)
      (messages.map fun m => ⟨m, writeMessage m⟩) := by
  induction messages with
  | nil => exact Reads.pure []
  | cons m rest ih =>
    obtain ⟨first, others⟩ := forall_mem_cons.mp valid
    have head : Reads readMessage (writeMessage m) ⟨m, writeMessage m⟩ := by
      exact reads_message 0 first.1
    have all : Reads (readMessages roomId (rest.length + 1))
        (writeMessage m ++ (rest.flatMap writeMessage ++ []))
        (⟨m, writeMessage m⟩ :: rest.map fun m => ⟨m, writeMessage m⟩) :=
      Reads.bind head (Reads.bind_nil (reads_refuse _ (not_not.mpr first.2))
        (Reads.bind (ih others) (Reads.pure _)))
    rwa [append_nil] at all

lemma readMessages_eq_ok {count : ℕ} {refs : List (HistoryMessageRef utf8)}
      (h : readMessages roomId count bytes = .ok (refs, rest)) :
    refs.length = count ∧ bytes = refs.flatMap (·.raw) ++ rest ∧
      ∀ r ∈ refs, r.message.Valid ∧ r.message.roomId = roomId ∧
      ∃ fill, r.raw = writeMessageFill fill r.message := by
  induction count generalizing bytes refs with
  | zero =>
    cases h
    exact ⟨rfl, rfl, by simp⟩
  | succ count ih =>
    obtain ⟨r, _, readFirst, h⟩ := bind_reads.mp h
    obtain ⟨_, _, checkRoom, h⟩ := bind_reads.mp h
    obtain ⟨others, _, readRest, h⟩ := bind_reads.mp h
    cases h
    obtain ⟨room, rfl⟩ := refuse_eq_ok checkRoom
    obtain ⟨len, rfl, valid⟩ := ih readRest
    obtain ⟨first, rfl, fill⟩ := readMessage_eq_ok readFirst
    refine ⟨by rw [length_cons, len], by simp [append_assoc], ?_⟩
    exact forall_mem_cons.mpr ⟨⟨first, not_not.mp room, fill⟩, valid⟩

lemma reads_finish {u : Unit} : finish bytes = .ok (u, rest) ↔ bytes = [] ∧ rest = [] := by
  show refuse (bytes ≠ []) _ bytes = _ ↔ _
  rw [refuse]
  split
  · next trailing => simp [trailing]
  · next done =>
    have none := not_not.mp done
    simp [none, eq_comm]

/-- The flag byte stands for the three flags. -/
lemma flags_chunkFlags (atStart complete hasBefore : Bool) :
    (chunkFlags atStart complete hasBefore).val &&& 248 = 0 ∧
    decide ((chunkFlags atStart complete hasBefore).val &&& chunkFlagAtStart ≠ 0) = atStart ∧
      decide ((chunkFlags atStart complete hasBefore).val &&& chunkFlagComplete ≠ 0) = complete ∧
      decide ((chunkFlags atStart complete hasBefore).val &&& chunkFlagHasBefore ≠ 0) =
        hasBefore := by
  cases atStart <;> cases complete <;> cases hasBefore <;> decide

/-- A flag byte without unknown bits is written for the flags it holds. -/
lemma chunkFlags_flags : ∀ flags : Byte, flags.val &&& 248 = 0 →
    flags = chunkFlags (flags.val &&& chunkFlagAtStart ≠ 0) (flags.val &&& chunkFlagComplete ≠ 0)
      (flags.val &&& chunkFlagHasBefore ≠ 0) := by
  decide +kernel

/-- The header with a filler for an absent bound. -/
def chunkHeaderFill (fill : UInt64) (roomId : UInt32) (before : Option UInt64)
    (atStart complete : Bool) (count : UInt16) : Bytes :=
  chunkMagic ++ (putWord roomId ++ ([chunkFlags atStart complete before.isSome] ++
    (putWord count ++ putWord (before.getD fill))))

variable {atStart complete : Bool} {before : Option UInt64}

lemma writeChunkHeader_eq {count : ℕ} (fits : count < 2 ^ 16) :
    writeChunkHeader roomId before atStart complete count =
      .ok (chunkHeaderFill 0 roomId before atStart complete (UInt16.ofNat count)) := by
  rw [writeChunkHeader, if_pos fits, chunkHeaderFill]
  simp [append_assoc]

lemma readChunk_written (fits : messages.length < 2 ^ 16) (valid : ∀ m ∈ messages, m.Valid ∧
      m.roomId = roomId) :
    readChunk (putWord roomId ++ ([chunkFlags atStart complete before.isSome] ++
      (putWord (UInt16.ofNat messages.length) ++
        (putWord (before.getD 0) ++ messages.flatMap writeMessage)))) =
      .ok ({ roomId, before, messages := messages.map fun m => ⟨m, writeMessage m⟩, atStart,
             complete }, []) := by
  obtain ⟨known, start, whole, bound⟩ := flags_chunkFlags atStart complete before.isSome
  have count : (UInt16.ofNat messages.length).toNat = messages.length :=
    UInt16.toNat_ofNat_of_lt' fits
  have records := reads_messages valid []
  rw [append_nil] at records
  refine bind_reads.mpr ⟨_, _, reads_word ended _ _, ?_⟩
  refine bind_reads.mpr ⟨_, _, reads_byte ended _ _, ?_⟩
  refine bind_reads.mpr ⟨_, _, reads_refuse _ (not_not.mpr known) _, ?_⟩
  refine bind_reads.mpr ⟨_, _, reads_word ended _ _, ?_⟩
  refine bind_reads.mpr ⟨_, _, reads_word ended _ _, ?_⟩
  refine bind_reads.mpr ⟨_, _, by rw [count]; exact records, ?_⟩
  refine bind_reads.mpr ⟨(), [], reads_finish.mpr ⟨rfl, rfl⟩, ?_⟩
  have bound' :
      (if (chunkFlags atStart complete before.isSome).val &&& chunkFlagHasBefore ≠
      0 then some (before.getD 0) else none) = before := by
    cases before with
    | none => rw [if_neg (of_decide_eq_false bound)]
    | some b => rw [if_pos (of_decide_eq_true bound)]; rfl
  simp only [pure, StateT.pure, Except.pure, bound', start, whole]

lemma decodeChunkRef_magic (rest : Bytes) :
    @decodeChunkRef utf8 (chunkMagic ++ rest) = (readChunk rest >>= fun r => .ok (some r.1)) := by
  rfl

lemma decodeChunkRef_written (fits : messages.length < 2 ^ 16) (valid : ∀ m ∈ messages, m.Valid ∧
      m.roomId = roomId) :
    decodeChunkRef
      (chunkHeaderFill 0 roomId before atStart complete (UInt16.ofNat messages.length) ++
      messages.flatMap writeMessage) =
      .ok (some { roomId, before, messages := messages.map fun m => ⟨m, writeMessage m⟩, atStart,
                  complete }) := by
  rw [chunkHeaderFill]
  simp only [append_assoc]
  rw [decodeChunkRef_magic, readChunk_written fits valid]
  rfl

lemma isSome_bound (present : Prop) [Decidable present] (bound : UInt64) :
    (if present then some bound else none).isSome = decide present := by
  by_cases h : present <;> simp [h]

lemma getD_bound (present : Prop) [Decidable present] (bound : UInt64) :
    (if present then some bound else none).getD bound = bound := by
  by_cases h : present <;> simp [h]

/-- An accepted chunk is a header with some filler, then the raw bytes of its records. -/
lemma decodeChunkRef_eq_ok {chunk : HistoryChunkRef utf8}
    (h : decodeChunkRef bytes = .ok (some chunk)) : chunk.messages.length < 2 ^ 16 ∧
      (∀ r ∈ chunk.messages, r.message.Valid ∧ r.message.roomId = chunk.roomId ∧
        ∃ fill, r.raw = writeMessageFill fill r.message) ∧
      ∃ fill, bytes = chunkHeaderFill fill chunk.roomId chunk.before chunk.atStart chunk.complete
        (UInt16.ofNat chunk.messages.length) ++ chunk.messages.flatMap (·.raw) := by
  rw [decodeChunkRef] at h
  split at h
  · cases h
  next magic =>
  obtain ⟨⟨chunk', rest⟩, read, h⟩ := bind_eq_ok.mp h
  cases h
  obtain ⟨roomId, _, readRoom, read⟩ := bind_reads.mp read
  obtain ⟨flags, _, readFlags, read⟩ := bind_reads.mp read
  obtain ⟨_, _, checkFlags, read⟩ := bind_reads.mp read
  obtain ⟨count, _, readCount, read⟩ := bind_reads.mp read
  obtain ⟨before, _, readBefore, read⟩ := bind_reads.mp read
  obtain ⟨messages, _, records, read⟩ := bind_reads.mp read
  obtain ⟨_, _, done, read⟩ := bind_reads.mp read
  cases read
  obtain ⟨rfl, rfl⟩ := reads_finish.mp done
  obtain ⟨len, rfl, valid⟩ := readMessages_eq_ok records
  obtain rfl := word_eq_ok readBefore
  obtain rfl := word_eq_ok readCount
  obtain ⟨known, rfl⟩ := refuse_eq_ok checkFlags
  obtain rfl := byte_eq_ok readFlags
  have body := word_eq_ok readRoom
  have whole : bytes = chunkMagic ++ bytes.drop chunkMagic.length := by
    conv_lhs => rw [← take_append_drop chunkMagic.length bytes]
    rw [not_not.mp magic]
  have fits : messages.length < 2 ^ 16 := by rw [len]; exact count.toNat_lt
  have counts : UInt16.ofNat messages.length = count := by rw [len, UInt16.ofNat_toNat]
  refine ⟨fits, valid, before, ?_⟩
  rw [whole, body, chunkHeaderFill, isSome_bound, getD_bound, counts,
    ← chunkFlags_flags flags (not_not.mp known)]
  simp only [append_assoc, cons_append, nil_append, append_nil]

/-- Any list of at most 65535 valid messages of a room is read back, with the header it is
written under; the length announced for a record is the number of bytes written; and a byte
string that is accepted is what the writers write for its result, except that the eight bytes of
an absent file transfer id and the eight bytes of an absent bound may hold anything. -/
theorem history_codec (utf8 : Utf8Check) :
    (∀ (roomId : UInt32) (before : Option UInt64) (atStart complete : Bool)
      (messages : List (ChatMessage utf8)), messages.length ≤ 65535 →
      (∀ m ∈ messages, m.Valid ∧ m.roomId = roomId) →
      ∃ header, writeChunkHeader roomId before atStart complete messages.length = .ok header ∧
        decodeChunkRef (header ++ messages.flatMap writeMessage) =
          .ok (some { roomId, before, messages := messages.map fun m => ⟨m, writeMessage m⟩,
                      atStart, complete })) ∧
    (∀ m : ChatMessage utf8, (writeMessage m).length = encodedMessageLen m) ∧
    ∀ (bytes : Bytes) (chunk : HistoryChunkRef utf8), decodeChunkRef bytes = .ok (some chunk) →
    chunk.messages.length ≤ 65535 ∧
      (∀ r ∈ chunk.messages, r.message.Valid ∧ r.message.roomId = chunk.roomId ∧
        ∃ fill, r.raw = writeMessageFill fill r.message) ∧
      ∃ fill, bytes = chunkHeaderFill fill chunk.roomId chunk.before chunk.atStart chunk.complete
        (UInt16.ofNat chunk.messages.length) ++ chunk.messages.flatMap (·.raw) := by
  refine ⟨fun roomId before atStart complete messages fits valid => ?_, length_writeMessage, ?_⟩
  · have fits : messages.length < 2 ^ 16 := Nat.lt_succ_of_le fits
    exact ⟨_, writeChunkHeader_eq fits, decodeChunkRef_written fits valid⟩
  · intro bytes chunk h
    obtain ⟨fits, valid, whole⟩ := decodeChunkRef_eq_ok h
    exact ⟨Nat.le_of_lt_succ fits, valid, whole⟩

/-! A chunk whose unused fields are not zero. -/

def sampleMessage : ChatMessage (fun _ => none) where
  messageId := 42
  roomId := 7
  sender := 9
  senderName := ⟨ascii "Alice", rfl⟩
  timestampMs := 1
  body := ⟨ascii "hi", rfl⟩
  fileTransferId := none
  flags := 0
  target := none

/-- The chunk is accepted and does not re-encode to the bytes it was read from. -/
theorem unused_fields_accepted :
    ∃ (bytes : Bytes) (chunk : HistoryChunkRef (fun _ => none)),
    decodeChunkRef bytes = .ok (some chunk) ∧
      (∃ header, writeChunkHeader chunk.roomId chunk.before chunk.atStart chunk.complete
        chunk.messages.length = .ok header ∧
        header ++ chunk.messages.flatMap (fun r => writeMessage r.message) ≠ bytes) :=
  ⟨chunkHeaderFill 5 7 none true true 1 ++ writeMessageFill 6 sampleMessage,
    { roomId := 7, before := none, messages := [⟨sampleMessage, writeMessageFill 6 sampleMessage⟩],
      atStart := true, complete := true },
    by decide +kernel, chunkHeaderFill 0 7 none true true 1, by decide +kernel, by decide +kernel⟩

end Chatt.History
