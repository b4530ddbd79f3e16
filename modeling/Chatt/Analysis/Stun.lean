import Chatt.Model.Stun

/-!
# Accepted STUN messages are genuine

The signed bytes fix the header and the attributes in front of the integrity attribute, and these
decode to the message that was signed (`readAttrs_attrs`).  What follows the integrity attribute is
not signed, and `decode` reads it like the rest: the message that is returned is the signed one
where what follows changes nothing, and only there.
-/

namespace Chatt.Stun

open Lib List Option

/-! ## What the integrity check stands for -/

/-- The attributes that `decode` reads. -/
def isRead (attrType : UInt16) : Bool :=
  attrType = attrUsername ∨ attrType = attrPriority ∨ attrType = attrIceControlling ∨
    attrType = attrIceControlled ∨ attrType = attrUseCandidate ∨ attrType = attrXorMappedAddress

/-- The types of the attributes in the bytes that are left, as the loop of `decode` meets them. -/
def attrTypes : ℕ → Bytes → List UInt16
  | 0, _ => []
  | rounds + 1, rest =>
    match splitAttr rest with
    | none => []
    | some (attrType, _, rest) => attrType :: attrTypes rounds rest

namespace StunMessage

/-- The bytes that the header counts, from an offset on. -/
def counted (bytes : Bytes) (offset : ℕ) : Bytes :=
  slice bytes offset (headerLen + announced bytes - offset)

/-- The loop over the attributes until no byte is left. -/
def readAttrs (m : StunMessage) (rest : Bytes) : Except StunError StunMessage :=
  decodeAttrs rest.length m rest

/-- The message that `decode` has read when it comes to the offset. -/
def messageUpTo (bytes : Bytes) (offset : ℕ) : Except StunError StunMessage :=
  match parseMessageType (wordBe UInt16 (slice bytes 0 2)) with
  | .error e => .error e
  | .ok messageClass =>
    readAttrs
      { messageClass, transactionId := toArr 12 (slice bytes 8 12), username := none
        priority := none, role := none, useCandidate := false, xorMappedAddress := none }
      ((bytes.take offset).drop headerLen)

/-- What stands behind the integrity attribute changes nothing in the message that was read by
then. -/
def Unaltered (bytes : Bytes) : Prop :=
  ∀ offset m, findAttr bytes attrMessageIntegritySha256 = some offset →
    messageUpTo bytes offset = .ok m → readAttrs m (counted bytes offset) = .ok m

/-- No attribute that `decode` reads stands behind the integrity attribute. -/
def IntegrityLast (bytes : Bytes) : Prop :=
  ∀ offset, findAttr bytes attrMessageIntegritySha256 = some offset →
    ∀ attrType ∈ attrTypes (announced bytes) (counted bytes offset), isRead attrType = false

/-- The ideal keyed hash: what carries a valid tag was handed to it when a holder of the key encoded
one of the messages. -/
def Unforged (stunIntegrity : StunIntegrity) (key : ByteArr 32) (messages : Set StunMessage)
    (bytes : Bytes) : Prop :=
  ∀ offset, findAttr bytes attrMessageIntegritySha256 = some offset →
    stunVerify stunIntegrity key (signedPart bytes offset) (slice bytes (offset + 4) 32) = true →
    ∃ m ∈ messages, (m.encode stunIntegrity (some key)).2 = some ⟨key, signedPart bytes offset⟩

/-- The message has a form on the wire: its username has a length of 16 bits, and its mapped address
no flow label and no scope. -/
structure Fits (m : StunMessage) : Prop where
  username : ∀ username ∈ m.username, (utf8 username).length < 2 ^ 16
  mapped : ∀ ip port flowinfo scopeId, m.xorMappedAddress = some (.v6 ip port flowinfo scopeId) →
    flowinfo = 0 ∧ scopeId = 0

end StunMessage

variable {bytes rest value : Bytes} {attrType : UInt16} {offset : ℕ}

/-! ## Attributes one by one -/

lemma length_attr (attrType : UInt16) (value : Bytes) :
    (attr attrType value).length = 4 + paddedLen value.length := by
  simp only [attr, length_append, length_putWordBe, width_uint16, length_replicate]
  unfold paddedLen
  omega

/-- An attribute that was appended is split off again. -/
lemma splitAttr_attr (h : value.length < 2 ^ 16) (rest : Bytes) :
    splitAttr (attr attrType value ++ rest) = some (attrType, value, rest) := by
  have hlen : (UInt16.ofNat value.length).toNat = value.length := UInt16.toNat_ofNat_of_lt' h
  have htotal := length_attr attrType value
  have hpadded : value.length ≤ paddedLen value.length := by unfold paddedLen; omega
  have hrest : (attr attrType value ++ rest).drop (4 + paddedLen value.length) = rest := by
    rw [← htotal, drop_left]
  have hshape : attr attrType value ++ rest =
      putWordBe attrType ++ (putWordBe (UInt16.ofNat value.length) ++
      (value ++ (List.replicate (paddedLen value.length - value.length) 0 ++ rest))) := by
    simp only [attr, append_assoc]
  have htype : slice (attr attrType value ++ rest) 0 2 = putWordBe attrType := by
    rw [hshape, slice_append_left (by simp)]
  have hcount : slice (attr attrType value ++ rest) 2 2 = putWordBe (UInt16.ofNat value.length) :=
    by
    rw [hshape, slice_append_right (by simp)]
    exact slice_append_left (by simp)
  have hvalue : slice (attr attrType value ++ rest) 4 value.length = value := by
    rw [hshape, slice_append_right (by simp), slice_append_right (by simp)]
    exact slice_append_left rfl
  have hlong : ¬(attr attrType value ++ rest).length < 4 + value.length := by
    rw [length_append, htotal]
    omega
  unfold splitAttr
  simp only [htype, hcount, wordBe_putWordBe, hlen, hvalue, hrest, if_neg hlong]
  rw [if_neg (by omega)]

lemma length_of_splitAttr {after : Bytes} (h : splitAttr rest = some (attrType, value, after)) :
    after.length + 4 ≤ rest.length := by
  unfold splitAttr at h
  dsimp only at h
  split_ifs at h with hshort hlong
  simp only [some.injEq, Prod.mk.injEq] at h
  rw [← h.2.2, length_drop]
  omega

namespace StunMessage

/-- More rounds than there are bytes change nothing. -/
lemma decodeAttrs_rounds {rounds more : ℕ} (h : rest.length ≤ rounds) (hmore : rounds ≤ more)
    (m : StunMessage) : decodeAttrs more m rest = decodeAttrs rounds m rest := by
  induction rounds generalizing more rest m with
  | zero =>
    have hnil : rest = [] := length_eq_zero_iff.mp (Nat.le_zero.mp h)
    cases more <;> simp [decodeAttrs, hnil]
  | succ rounds ih =>
    obtain ⟨more, rfl⟩ : ∃ n, more = n + 1 := ⟨more - 1, by omega⟩
    simp only [decodeAttrs]
    split
    · rfl
    rcases hsplit : splitAttr rest with _ | ⟨attrType, value, after⟩
    · rfl
    have hlen := length_of_splitAttr hsplit
    dsimp only
    cases m.setAttr attrType value with
    | error e => rfl
    | ok m => exact ih (by omega) (by omega) m

lemma decodeAttrs_eq {rounds : ℕ} (h : rest.length ≤ rounds) (m : StunMessage) :
    decodeAttrs rounds m rest = readAttrs m rest :=
  decodeAttrs_rounds le_rfl h m

lemma readAttrs_attr (h : value.length < 2 ^ 16) {m m' : StunMessage}
      (hset : m.setAttr attrType value = .ok m')
    (rest : Bytes) : readAttrs m (attr attrType value ++ rest) = readAttrs m' rest := by
  have hlen : rest.length + 1 ≤ (attr attrType value ++ rest).length := by
    rw [length_append, length_attr]
    omega
  obtain ⟨rounds, hrounds⟩ : ∃ n, (attr attrType value ++ rest).length = n + 1 :=
    ⟨_, (Nat.sub_add_cancel (by omega)).symm⟩
  have hne : attr attrType value ++ rest ≠ [] := by
    intro hnil
    rw [hnil] at hlen
    simp at hlen
  rw [readAttrs, hrounds, decodeAttrs, if_neg hne]
  simp only [splitAttr_attr h, hset]
  exact decodeAttrs_eq (by omega) m'

/-! ## Mapped addresses -/

lemma xor_xor_byte (a b : Byte) : a ^^^ b ^^^ b = a := by
  apply Fin.ext
  have hlt : a.val ^^^ b.val < 256 := @Nat.xor_lt_two_pow _ _ 8 a.isLt b.isLt
  show ((a.val ^^^ b.val) % 256 ^^^ b.val) % 256 = a.val
  rw [Nat.mod_eq_of_lt hlt, Nat.xor_assoc, Nat.xor_self, Nat.xor_zero, Nat.mod_eq_of_lt a.isLt]

lemma length_xorBytes {mask : Bytes} (h : bytes.length ≤ mask.length) :
    (xorBytes bytes mask).length = bytes.length := by
  rw [xorBytes, length_zipWith, min_eq_left h]

lemma xorBytes_xorBytes {mask : Bytes} (h : bytes.length ≤ mask.length) :
    xorBytes (xorBytes bytes mask) mask = bytes := by
  induction bytes generalizing mask with
  | nil => simp [xorBytes]
  | cons b rest ih =>
    cases mask with
    | nil => simp at h
    | cons k mask =>
      have hrest := @ih mask (by simpa using h)
      simp only [xorBytes, zipWith_cons_cons, xor_xor_byte] at hrest ⊢
      rw [hrest]

lemma maskPort_maskPort (port : UInt16) : maskPort (maskPort port) = port := by simp [maskPort]

lemma toArr_val {n : ℕ} (bytes : ByteArr n) : toArr n bytes.val = bytes := by
  simp [toArr, bytes.property]

/-- The parts of an encoded address. -/
lemma mapped_parts (family : Byte) (port : UInt16) (body : Bytes) :
    (0 :: family :: (putWordBe port ++ body) : Bytes).length = 4 + body.length ∧
    slice (0 :: family :: (putWordBe port ++ body)) 2 2 = putWordBe port ∧
      (0 :: family :: (putWordBe port ++ body) : Bytes).drop 4 = body := by
  refine ⟨?_, ?_, ?_⟩
  · simp
    omega
  · exact slice_append_left (by simp)
  · exact drop_left' (by simp)

/-- An address that carries nothing but an address and a port is decoded as it was encoded. -/
lemma decodeXorMapped_encode {addr : SocketAddr} {transactionId : TransactionId}
    (hplain : ∀ ip port flowinfo scopeId, addr = .v6 ip port flowinfo scopeId → flowinfo = 0 ∧
      scopeId = 0) :
    decodeXorMapped (encodeXorMapped addr transactionId) transactionId = .ok addr := by
  cases addr with
  | v4 ip port =>
    have hmask : ip.val.length ≤ magicCookie.length := by simp [ip.property, magicCookie]
    obtain ⟨hlen, hport, hbody⟩ := mapped_parts 1 (maskPort port) (xorBytes ip.val magicCookie)
    rw [length_xorBytes hmask, ip.property] at hlen
    simp [decodeXorMapped, encodeXorMapped, hlen, hport, hbody, xorBytes_xorBytes hmask,
      maskPort_maskPort, toArr_val]
  | v6 ip port flowinfo scopeId =>
    obtain ⟨rfl, rfl⟩ := hplain ip port flowinfo scopeId rfl
    have hmask : ip.val.length ≤ (addressMask transactionId).length := by
      simp [ip.property, magicCookie, addressMask, transactionId.property]
    obtain ⟨hlen, hport, hbody⟩ :=
      mapped_parts 2 (maskPort port) (xorBytes ip.val (addressMask transactionId))
    rw [length_xorBytes hmask, ip.property] at hlen
    simp [decodeXorMapped, encodeXorMapped, hlen, hport, hbody, xorBytes_xorBytes hmask,
      maskPort_maskPort, toArr_val]

lemma length_encodeXorMapped (addr : SocketAddr) (transactionId : TransactionId) :
    (encodeXorMapped addr transactionId).length < 2 ^ 16 := by
  cases addr <;> simp [encodeXorMapped, xorBytes, magicCookie, addressMask,
    transactionId.property] <;> omega

/-! ## The attributes of a message -/

variable {m msg : StunMessage}

/-- A word is an attribute of at most eight bytes. -/
lemma length_word_lt {α : Type} [Word α] (x : α) (h : Word.width α ≤ 8) :
    (putWordBe x).length < 2 ^ 16 := by
  rw [length_putWordBe]
  omega

/-- The message before its attributes are read. -/
def blank (m : StunMessage) : StunMessage where
  messageClass := m.messageClass
  transactionId := m.transactionId
  username := none
  priority := none
  role := none
  useCandidate := false
  xorMappedAddress := none

/-- The attributes that were written give back the message. -/
lemma readAttrs_attrs (h : m.Fits) (rest : Bytes) :
    readAttrs m.blank (m.attrs ++ rest) = readAttrs m rest := by
  obtain ⟨messageClass, transactionId, username, priority, role, useCandidate, mapped⟩ := m
  simp only [attrs, blank, append_assoc]
  have husername : ∀ rest, readAttrs ⟨messageClass, transactionId, none, none, none, false, none⟩
      (username.elim [] (fun username => attr attrUsername (utf8 username)) ++ rest) =
      readAttrs ⟨messageClass, transactionId, username, none, none, false, none⟩ rest := by
    intro rest
    cases username with
    | none => rfl
    | some username =>
      apply readAttrs_attr (h.username username rfl)
      simp [setAttr, fromUtf8_utf8]
  have hpriority : ∀ rest, readAttrs ⟨messageClass, transactionId, username, none,
      none, false, none⟩
      (priority.elim [] (fun priority => attr attrPriority (putWordBe priority)) ++ rest) =
      readAttrs ⟨messageClass, transactionId, username, priority, none, false, none⟩ rest := by
    intro rest
    cases priority with
    | none => rfl
    | some priority =>
      apply readAttrs_attr (length_word_lt priority (by decide))
      simp [setAttr, attrPriority, attrUsername]
  have hrole : ∀ rest, readAttrs ⟨messageClass, transactionId, username, priority,
      none, false, none⟩
      (role.elim [] roleAttr ++ rest) =
      readAttrs ⟨messageClass, transactionId, username, priority, role, false, none⟩ rest := by
    intro rest
    cases role with
    | none => rfl
    | some role =>
      cases role with
      | controlling value =>
        apply readAttrs_attr (length_word_lt value (by decide))
        simp [setAttr, attrPriority, attrUsername, attrIceControlling]
      | controlled value =>
        apply readAttrs_attr (length_word_lt value (by decide))
        simp [setAttr, attrPriority, attrUsername, attrIceControlling, attrIceControlled]
  have huse : ∀ rest, readAttrs ⟨messageClass, transactionId, username, priority, role, false, none⟩
      ((if useCandidate = true then attr attrUseCandidate [] else []) ++ rest) =
      readAttrs ⟨messageClass, transactionId, username, priority, role, useCandidate, none⟩ rest :=
        by
    intro rest
    cases useCandidate with
    | false => rfl
    | true =>
      apply readAttrs_attr (by simp)
      simp [setAttr, attrPriority, attrUsername, attrIceControlling, attrIceControlled,
        attrUseCandidate]
  have hmapped : ∀ rest, readAttrs ⟨messageClass, transactionId, username, priority, role,
      useCandidate, none⟩
      (mapped.elim [] (fun mapped =>
        attr attrXorMappedAddress (encodeXorMapped mapped transactionId)) ++ rest) =
      readAttrs ⟨messageClass, transactionId, username, priority, role, useCandidate, mapped⟩
        rest := by
    intro rest
    cases mapped with
    | none => rfl
    | some addr =>
      apply readAttrs_attr (length_encodeXorMapped addr transactionId)
      have hdecode := @decodeXorMapped_encode addr transactionId
        fun ip port flowinfo scopeId haddr => h.mapped ip port flowinfo scopeId (by rw [haddr])
      simp [setAttr, attrPriority, attrUsername, attrIceControlling, attrIceControlled,
        attrUseCandidate, attrXorMappedAddress, hdecode]
  rw [husername, hpriority, hrole, huse, hmapped]
  apply readAttrs_attr
  · decide
  · simp [setAttr, attrPriority, attrUsername, attrIceControlling, attrIceControlled,
      attrUseCandidate, attrXorMappedAddress, attrSoftware]

/-! ## Behind the integrity attribute -/

lemma setAttr_unread (h : isRead attrType = false) (m : StunMessage) (value : Bytes) :
    m.setAttr attrType value = .ok m := by
  simp only [isRead, decide_eq_false_iff_not, not_or] at h
  obtain ⟨h1, h2, h3, h4, h5, h6⟩ := h
  simp only [setAttr, h1, h2, h3, h4, h5, h6, if_false]

/-- Attributes that are not read leave the message as it is. -/
lemma decodeAttrs_unread {rounds : ℕ} {m : StunMessage}
      (hunread : ∀ attrType ∈ attrTypes rounds rest, isRead attrType = false)
    (h : decodeAttrs rounds m rest = .ok msg) : msg = m := by
  induction rounds generalizing rest with
  | zero => exact (Except.ok.inj h).symm
  | succ rounds ih =>
    rw [decodeAttrs] at h
    split at h
    · exact (Except.ok.inj h).symm
    rcases hsplit : splitAttr rest with _ | ⟨attrType, value, after⟩
    · simp [hsplit] at h
    · simp only [attrTypes, hsplit, mem_cons, forall_eq_or_imp] at hunread
      simp only [hsplit, setAttr_unread hunread.1] at h
      exact ih hunread.2 h

/-! ## What the check has seen -/

lemma findAttrFrom_bounds {rounds found : ℕ}
    (h : findAttrFrom attrType rounds offset rest = some found) :
    offset ≤ found ∧ found + 4 ≤ offset + rest.length := by
  induction rounds generalizing offset rest with
  | zero => simp [findAttrFrom] at h
  | succ rounds ih =>
    rw [findAttrFrom] at h
    split_ifs at h with hshort htype
    · obtain rfl := some.inj h
      omega
    · have hlater := ih h
      rw [length_drop] at hlater
      omega

lemma findAttr_bounds (h : findAttr bytes attrType = some offset) :
    headerLen ≤ offset ∧ offset + 4 ≤ headerLen + announced bytes := by
  unfold findAttr at h
  split_ifs at h with hshort
  obtain ⟨hlow, hhigh⟩ := findAttrFrom_bounds h
  have hlen : (slice bytes headerLen (announced bytes)).length ≤ announced bytes :=
    length_take_le _ _
  omega

lemma slice_split {start mid len : ℕ} (hlow : start ≤ mid) (hhigh : mid ≤ start + len) :
    slice bytes start len = (bytes.take mid).drop start ++ slice bytes mid (start + len - mid) := by
  have hfront : (bytes.take mid).drop start = slice bytes start (mid - start) := by
    rw [drop_take, slice]
  obtain ⟨more, rfl⟩ : ∃ more, mid = start + more := ⟨mid - start, by omega⟩
  rw [hfront]
  simp only [slice, ← drop_drop]
  rw [show start + more - start = more by omega,
    show start + len - (start + more) = len - more by omega]
  rw [← take_add, show more + (len - more) = len by omega]

/-- What `encode` hands to the keyed hash. -/
lemma signedPart_of_call {stunIntegrity : StunIntegrity} {key : ByteArr 32}
    (h : (m.encode stunIntegrity (some key)).2 = some ⟨key, signedPart bytes offset⟩) :
    signedPart bytes offset = m.header (m.attrs.length + integrityAttrLen) ++ m.attrs := by
  rw [encode, some.injEq, IntegrityCall.mk.injEq] at h
  exact h.2.symm

/-- The parts of the signed bytes. -/
lemma signedPart_eq (hlong : headerLen ≤ offset) (hinside : offset ≤ bytes.length)
    (h : signedPart bytes offset = m.header (m.attrs.length + integrityAttrLen) ++ m.attrs) :
    bytes.take 2 = putWordBe (messageType m.messageClass) ∧ slice bytes 8 12 = m.transactionId.val ∧
    (bytes.take offset).drop headerLen = m.attrs := by
  have hheader : headerLen = 20 := rfl
  simp only [signedPart, header, append_assoc] at h
  obtain ⟨htype, h⟩ := append_inj h (by simp; omega)
  obtain ⟨-, h⟩ := append_inj h (by simp)
  -- what is left are the bytes from the cookie to the integrity attribute
  have hbody : (bytes.take offset).drop headerLen = m.attrs := by
    rw [show headerLen = 4 + 16 from rfl, ← drop_drop, h, ← append_assoc]
    exact drop_left' (by simp [magicCookie, m.transactionId.property])
  have htransaction : slice (bytes.take offset) 8 12 = m.transactionId.val := by
    rw [slice, show 8 = 4 + 4 from rfl, ← drop_drop, h,
      drop_left' (show magicCookie.length = 4 from rfl), take_left' m.transactionId.property]
  refine ⟨htype, ?_, hbody⟩
  rw [← htransaction, slice, slice, drop_take, take_take, min_eq_left (by omega)]

lemma decode_eq_ok (h : decode bytes = .ok msg) :
    headerLen + announced bytes ≤ bytes.length ∧
    ∃ messageClass, parseMessageType (wordBe UInt16 (slice bytes 0 2)) = .ok messageClass ∧
      decodeAttrs (announced bytes) ⟨messageClass, toArr 12 (slice bytes 8 12), none, none,
        none, false, none⟩
        (slice bytes headerLen (announced bytes)) = .ok msg := by
  unfold decode at h
  simp only [error_else_eq_ok, not_lt] at h
  obtain ⟨-, -, hlen, -, h⟩ := h
  refine ⟨hlen, ?_⟩
  split at h
  · cases h
  next messageClass hclass => exact ⟨messageClass, hclass, h⟩

lemma parseMessageType_messageType (messageClass : MessageClass) :
    parseMessageType (messageType messageClass) = .ok messageClass := by
  cases messageClass <;> decide

lemma decodeAndVerify_eq_ok {stunIntegrity : StunIntegrity} {key : ByteArr 32}
      (h : decodeAndVerify stunIntegrity bytes key = .ok msg) :
    decode bytes = .ok msg ∧ ∃ offset, findAttr bytes attrMessageIntegritySha256 = some offset ∧
      stunVerify stunIntegrity key (signedPart bytes offset) (slice bytes (offset + 4) 32) =
        true := by
  unfold decodeAndVerify at h
  split at h
  · cases h
  next message hdecode =>
  split at h
  · cases h
  next offset hfind =>
    split_ifs at h with hshort hverify
    exact ⟨hdecode.trans h, offset, hfind, hverify⟩

/-- A packet around the signed bytes of a message: `decode` has read that message when it comes to
the integrity attribute, and goes on with what stands behind. -/
lemma decode_of_call {stunIntegrity : StunIntegrity} {key : ByteArr 32} (hfits : m.Fits)
    (hcall : (m.encode stunIntegrity (some key)).2 = some ⟨key, signedPart bytes offset⟩)
    (hfind : findAttr bytes attrMessageIntegritySha256 = some offset)
    (hdecode : decode bytes = .ok msg) :
    messageUpTo bytes offset = .ok m ∧ readAttrs m (counted bytes offset) = .ok msg := by
  obtain ⟨hlow, hhigh⟩ := findAttr_bounds hfind
  obtain ⟨hlen, messageClass, hclass, hattrs⟩ := decode_eq_ok hdecode
  obtain ⟨htype, htransaction, hfront⟩ := signedPart_eq hlow (by omega) (signedPart_of_call hcall)
  have htype' : slice bytes 0 2 = putWordBe (messageType m.messageClass) := htype
  rw [htype', wordBe_putWordBe, parseMessageType_messageType] at hclass
  obtain rfl := Except.ok.inj hclass
  constructor
  · rw [messageUpTo, htype', wordBe_putWordBe, parseMessageType_messageType,
      htransaction, toArr_val,
      hfront, ← append_nil m.attrs]
    exact readAttrs_attrs hfits []
  · have hregion : slice bytes headerLen (announced bytes) = m.attrs ++ counted bytes offset := by
      rw [slice_split hlow (by omega), hfront, counted]
    have hall : (slice bytes headerLen (announced bytes)).length ≤ announced bytes :=
      length_take_le _ _
    rw [htransaction, toArr_val, decodeAttrs_eq hall, hregion] at hattrs
    rw [← readAttrs_attrs hfits]
    exact hattrs

/-- The returned message is the signed one exactly if nothing behind the integrity attribute
changes it. -/
lemma eq_iff_unaltered {stunIntegrity : StunIntegrity} {key : ByteArr 32} (hfits : m.Fits)
    (hcall : (m.encode stunIntegrity (some key)).2 = some ⟨key, signedPart bytes offset⟩)
    (hfind : findAttr bytes attrMessageIntegritySha256 = some offset)
    (hdecode : decode bytes = .ok msg) : msg = m ↔ Unaltered bytes := by
  obtain ⟨hfront, hread⟩ := decode_of_call hfits hcall hfind hdecode
  constructor
  · rintro rfl other m hother hm
    obtain rfl := some.inj (hfind.symm.trans hother)
    obtain rfl := Except.ok.inj (hfront.symm.trans hm)
    exact hread
  · intro hunaltered
    exact Except.ok.inj (hread.symm.trans (hunaltered offset m hfind hfront))

/-- A packet with nothing to read behind the integrity attribute is unaltered. -/
lemma IntegrityLast.unaltered {stunIntegrity : StunIntegrity} {key : ByteArr 32}
    (hlast : IntegrityLast bytes) (hfits : m.Fits)
    (hcall : (m.encode stunIntegrity (some key)).2 = some ⟨key, signedPart bytes offset⟩)
    (hfind : findAttr bytes attrMessageIntegritySha256 = some offset)
    (hdecode : decode bytes = .ok msg) : Unaltered bytes := by
  obtain ⟨-, hread⟩ := decode_of_call hfits hcall hfind hdecode
  have hcounted : (counted bytes offset).length ≤ announced bytes := by
    obtain ⟨hlow, -⟩ := findAttr_bounds hfind
    refine le_trans (length_take_le _ _) ?_
    omega
  rw [← decodeAttrs_eq hcounted] at hread
  have hsame : msg = m := decodeAttrs_unread (hlast offset hfind) hread
  exact (eq_iff_unaltered hfits hcall hfind hdecode).mp hsame

def sampleIntegrity : StunIntegrity := fun _ _ => ByteArr.replicate 32 0

def sampleKey : ByteArr 32 := ByteArr.replicate 32 1

def sampleRequest : StunMessage :=
  bindingRequest (ByteArr.replicate 12 7) (some ['p', ':', '4']) 123 (.controlling 55) false

def sampleBytes : Bytes := (sampleRequest.encode sampleIntegrity (some sampleKey)).1

/-- The bytes with more behind them, and a header that counts it. -/
def extend (bytes extra : Bytes) : Bytes :=
  bytes.take 2 ++ putWordBe (UInt16.ofNat (announced bytes + extra.length)) ++ bytes.drop 4 ++ extra

lemma sampleRequest_fits : sampleRequest.Fits where
  username := by decide +kernel
  mapped := by simp [sampleRequest, bindingRequest]

lemma unforged_of_find {stunIntegrity : StunIntegrity} {key : ByteArr 32}
    (hfind : findAttr bytes attrMessageIntegritySha256 = some offset)
    (hcall : (m.encode stunIntegrity (some key)).2 = some ⟨key, signedPart bytes offset⟩) :
    Unforged stunIntegrity key {m} bytes := by
  intro found hfound _
  rw [hfind] at hfound
  obtain rfl := some.inj hfound
  exact ⟨m, rfl, hcall⟩

lemma sampleBytes_last : IntegrityLast sampleBytes := by
  intro offset hoffset
  have hfind : findAttr sampleBytes attrMessageIntegritySha256 = some 64 := by decide +kernel
  obtain rfl := some.inj (hfind.symm.trans hoffset)
  have htypes : attrTypes (announced sampleBytes) (counted sampleBytes 64) =
      [attrMessageIntegritySha256, attrFingerprint] := by decide +kernel
  simp only [htypes, mem_cons, not_mem_nil, or_false, forall_eq_or_imp, forall_eq]
  decide

end StunMessage

end Chatt.Stun
