import MpQuic.Library.ByteOrder

namespace MpQuic.Handshake

open MpQuic.Library MpQuic.Library.ByteOrder List

def cryptoMaxParams : Nat := 128

def cryptoParameterMaxLength : Nat := 4000

abbrev Tag := Fin (2 ^ 32)

abbrev TagMap := Finmap fun _ : Tag => List UInt8

structure HandshakeMessage where
  tag : Tag
  data : TagMap

-- The first two are the errors of `io.ReadFull`.
inductive MessageError where
  | eof
  | unexpectedEOF
  | cryptoTooManyEntries
  | cryptoInvalidValueLength (message : String)
  deriving DecidableEq, Repr

-- What is read from a stream stays read, also if there is an error later.
abbrev MessageReader := ExceptT MessageError (StateM (List UInt8))

def readFull (count : Nat) : MessageReader (List UInt8) := fun stream =>
  if count ≤ stream.length then (.ok (stream.take count), stream.drop count)
  else (.error (if stream.isEmpty then .eof else .unexpectedEOF), [])

-- `binary.LittleEndian.Uint32(data[pos:])`
def uint32At (data : List UInt8) (pos : Nat) : Nat :=
  littleEndian.value ((data.drop pos).take 4)

-- The tag and the end of the value in the entry with the number `i`.
def entryAt (index : List UInt8) (i : Nat) : Tag × Nat :=
  (Fin.ofNat (2 ^ 32) (uint32At index (8 * i)), uint32At index (8 * i + 4))

-- The loop over the index. The offsets are unsigned 32-bit integers, and so is their difference.
def readValues : List (Tag × Nat) → Nat → TagMap → MessageReader TagMap
  | [], _, resultMap => pure resultMap
  | (tag, dataEnd) :: rest, dataStart, resultMap => do
    let dataLen := (dataEnd + 2 ^ 32 - dataStart) % 2 ^ 32
    if dataLen > cryptoParameterMaxLength then
      throw (.cryptoInvalidValueLength "value too long")
    let data ← readFull dataLen
    readValues rest dataEnd (resultMap.insert tag data)

def readEntries (messageTag : Tag) (nPairs : Nat) : MessageReader HandshakeMessage := do
  let index ← readFull (nPairs * 8)
  let resultMap ← readValues ((range nPairs).map (entryAt index)) 0 ∅
  return ⟨messageTag, resultMap⟩

def parseHandshakeMessage : MessageReader HandshakeMessage := do
  let messageTag ← readFull 4
  let slice ← readFull 4
  let nPairs := uint32At slice 0
  if nPairs > cryptoMaxParams then throw .cryptoTooManyEntries
  readEntries (Fin.ofNat (2 ^ 32) (uint32At messageTag 0)) nPairs

-- `binary.LittleEndian.PutUint32(data[pos:], value)`
def putUint32 (data : List UInt8) (pos value : Nat) : List UInt8 :=
  data.take pos ++ littleEndian.bytes 4 value ++ data.drop (pos + 4)

structure WriteState where
  buffer : List UInt8
  indexData : List UInt8
  offset : Nat

namespace HandshakeMessage

variable (h : HandshakeMessage)

def getTagsSorted : List Tag :=
  h.data.keys.sort

def value (t : Tag) : List UInt8 :=
  (h.data.lookup t).getD []

def writeValue (state : WriteState) (entry : Tag × Nat) : WriteState :=
  let v := h.value entry.1
  let offset := (state.offset + v.length) % 2 ^ 32
  let indexData := putUint32 state.indexData (8 * entry.2) entry.1.val
  { buffer := state.buffer ++ v
    indexData := putUint32 indexData (8 * entry.2 + 4) offset
    offset := offset }

-- The index is written as zeros first, and copied into the buffer at the end.
def write (b : List UInt8) : List UInt8 :=
  let b := b ++ littleEndian.bytes 4 h.tag.val
  let b := b ++ littleEndian.bytes 2 h.data.keys.card
  let b := b ++ littleEndian.bytes 2 0
  let indexData := replicate (8 * h.data.keys.card) 0
  let state := h.getTagsSorted.zipIdx.foldl h.writeValue ⟨b ++ indexData, indexData, 0⟩
  state.buffer.take b.length ++ state.indexData ++
    state.buffer.drop (b.length + state.indexData.length)

-- The entries for some tags, behind values of `offset` bytes.
def entries : List Tag → Nat → List (Tag × Nat)
  | [], _ => []
  | t :: rest, offset =>
    let dataEnd := (offset + (h.value t).length) % 2 ^ 32
    (t, dataEnd) :: entries rest dataEnd

end HandshakeMessage

open HandshakeMessage

def encodeEntry (entry : Tag × Nat) : List UInt8 :=
  littleEndian.bytes 4 entry.1.val ++ littleEndian.bytes 4 entry.2

section Write

variable (h : HandshakeMessage)

theorem putUint32_append (front old back : List UInt8) (value : Nat) (hold : old.length = 4) :
    putUint32 (front ++ (old ++ back)) front.length value =
      front ++ (littleEndian.bytes 4 value ++ back) := by
  have hdrop : (front ++ (old ++ back)).drop (front.length + 4) = back := by
    rw [← hold, ← length_append, ← append_assoc, drop_left]
  rw [putUint32, take_left, hdrop, append_assoc]

theorem length_encodeEntry (entry : Tag × Nat) : (encodeEntry entry).length = 8 := by
  rw [encodeEntry, length_append, length_bytes, length_bytes]

theorem length_index (list : List (Tag × Nat)) :
    (list.flatMap encodeEntry).length = 8 * list.length := by
  induction list with
  | nil => rfl
  | cons entry rest ih =>
    rw [flatMap_cons, length_append, length_encodeEntry, ih, length_cons]
    omega

theorem length_entries (tags : List Tag) (offset : Nat) :
    (h.entries tags offset).length = tags.length := by
  induction tags generalizing offset with
  | nil => rfl
  | cons t rest ih => rw [entries, length_cons, ih, length_cons]

theorem foldl_writeValue (tags : List Tag) (buffer front : List UInt8) (i offset : Nat)
    (hfront : front.length = 8 * i) :
    ∃ last, (tags.zipIdx i).foldl h.writeValue
        ⟨buffer, front ++ replicate (8 * tags.length) 0, offset⟩ =
      ⟨buffer ++ tags.flatMap h.value, front ++ (h.entries tags offset).flatMap encodeEntry,
        last⟩ := by
  induction tags generalizing buffer front i offset with
  | nil => exact ⟨offset, by simp [entries]⟩
  | cons t rest ih =>
    have hzeros : replicate (8 * (t :: rest).length) (0 : UInt8) =
        replicate 4 0 ++ (replicate 4 0 ++ replicate (8 * rest.length) 0) := by
      rw [replicate_append_replicate, replicate_append_replicate, length_cons]
      congr 1
      omega
    generalize hend : (offset + (h.value t).length) % 2 ^ 32 = dataEnd
    have hwrite : h.writeValue
        ⟨buffer, front ++ replicate (8 * (t :: rest).length) 0, offset⟩ (t, i) =
      ⟨buffer ++ h.value t, front ++ encodeEntry (t, dataEnd) ++ replicate (8 * rest.length) 0,
        dataEnd⟩ := by
      have hsecond : 8 * i + 4 = (front ++ littleEndian.bytes 4 t.val).length := by simp [hfront]
      simp only [writeValue, hend]
      rw [hzeros, ← hfront, putUint32_append _ _ _ _ length_replicate, hfront, hsecond,
        ← append_assoc front, putUint32_append _ _ _ _ length_replicate]
      simp only [encodeEntry, append_assoc]
    rw [zipIdx_cons, foldl_cons, hwrite]
    obtain ⟨last, hlast⟩ := ih (buffer ++ h.value t) (front ++ encodeEntry (t, dataEnd)) (i + 1)
      dataEnd (by rw [length_append, length_encodeEntry, hfront]; omega)
    refine ⟨last, hlast.trans ?_⟩
    simp only [entries, hend, flatMap_cons, append_assoc]

theorem length_getTagsSorted : h.getTagsSorted.length = h.data.keys.card :=
  Finset.length_sort _

def HandshakeMessage.encoded (h : HandshakeMessage) : List UInt8 :=
  littleEndian.bytes 4 h.tag.val ++ (littleEndian.bytes 2 h.data.keys.card ++
    (littleEndian.bytes 2 0 ++ ((h.entries h.getTagsSorted 0).flatMap encodeEntry ++
      h.getTagsSorted.flatMap h.value)))

theorem write_eq (b : List UInt8) : h.write b = b ++ h.encoded := by
  have hlength := length_getTagsSorted h
  unfold HandshakeMessage.write
  dsimp only
  generalize hb : b ++ littleEndian.bytes 4 h.tag.val ++
    littleEndian.bytes 2 h.data.keys.card ++ littleEndian.bytes 2 0 = header
  obtain ⟨last, hfold⟩ := foldl_writeValue h h.getTagsSorted
    (header ++ replicate (8 * h.data.keys.card) 0) [] 0 0 rfl
  rw [nil_append, nil_append, hlength] at hfold
  have hindex : (replicate (8 * h.data.keys.card) (0 : UInt8)).length =
      ((h.entries h.getTagsSorted 0).flatMap encodeEntry).length := by
    rw [length_replicate, length_index, length_entries, hlength]
  simp only [hfold]
  rw [append_assoc header, take_left, ← hindex, ← drop_drop, drop_left, drop_left, ← hb]
  simp only [encoded, append_assoc]

end Write

section Read

variable {α β : Type}

theorem bind_of_ok {reader : MessageReader α} {next : α → MessageReader β}
    {stream rest : List UInt8} {result : α} (hr : reader stream = (.ok result, rest)) :
    (reader >>= next) stream = next result rest := by
  show (ExceptT.bindCont next (reader stream).1) (reader stream).2 = _
  rw [hr]
  rfl

theorem bind_of_error {reader : MessageReader α} {next : α → MessageReader β}
    {stream rest : List UInt8} {err : MessageError} (hr : reader stream = (.error err, rest)) :
    (reader >>= next) stream = (.error err, rest) := by
  show (ExceptT.bindCont next (reader stream).1) (reader stream).2 = _
  rw [hr]
  rfl

theorem readFull_append (bytes more : List UInt8) :
    readFull bytes.length (bytes ++ more) = (.ok bytes, more) := by
  simp [readFull]

theorem uint32At_append (front back : List UInt8) {value : Nat} (hvalue : value < 2 ^ 32) :
    uint32At (front ++ (littleEndian.bytes 4 value ++ back)) front.length = value := by
  have htake : (littleEndian.bytes 4 value ++ back).take 4 = littleEndian.bytes 4 value :=
    take_left' (length_bytes _ _ _)
  rw [uint32At, drop_left, htake, value_bytes_of_lt _ hvalue]

theorem uint32At_skip (front back : List UInt8) (pos : Nat) :
    uint32At (front ++ back) (front.length + pos) = uint32At back pos := by
  rw [uint32At, uint32At, ← drop_drop, drop_left]

end Read

section RoundTrip

variable (h : HandshakeMessage)

theorem map_entryAt {list : List (Tag × Nat)} (hlist : ∀ entry ∈ list, entry.2 < 2 ^ 32) :
    (range list.length).map (entryAt (list.flatMap encodeEntry)) = list := by
  induction list with
  | nil => rfl
  | cons entry rest ih =>
    have hfirst : entryAt ((entry :: rest).flatMap encodeEntry) 0 = entry := by
      have htag := uint32At_append [] (littleEndian.bytes 4 entry.2 ++ rest.flatMap encodeEntry)
        entry.1.isLt
      have hend := uint32At_append (littleEndian.bytes 4 entry.1.val) (rest.flatMap encodeEntry)
        (hlist entry mem_cons_self)
      rw [length_bytes] at hend
      rw [entryAt, flatMap_cons, encodeEntry, append_assoc]
      exact Prod.ext ((congrArg _ htag).trans (Fin.ofNat_val_eq_self _)) hend
    have hlater : ∀ i, entryAt ((entry :: rest).flatMap encodeEntry) (i + 1) =
        entryAt (rest.flatMap encodeEntry) i := by
      intro i
      have hskip := uint32At_skip (encodeEntry entry) (rest.flatMap encodeEntry)
      rw [length_encodeEntry] at hskip
      rw [entryAt, entryAt, flatMap_cons, show 8 * (i + 1) = 8 + 8 * i by omega, hskip,
        Nat.add_assoc, hskip]
    rw [length_cons, range_succ_eq_map, map_cons, map_map, hfirst]
    congr 1
    refine (map_congr_left fun i _ => hlater i).trans ?_
    exact ih fun other hother => hlist other (mem_cons_of_mem _ hother)

theorem entries_lt (tags : List Tag) (offset : Nat) :
    ∀ entry ∈ h.entries tags offset, entry.2 < 2 ^ 32 := by
  induction tags generalizing offset with
  | nil => simp [entries]
  | cons t rest ih =>
    intro entry hentry
    rcases mem_cons.mp hentry with rfl | hlater
    · exact Nat.mod_lt _ (by norm_num)
    · exact ih _ entry hlater

theorem readValues_entries (tags : List Tag) (more : List UInt8) (offset : Nat) (map : TagMap)
    (hvalues : ∀ t ∈ tags, (h.value t).length ≤ cryptoParameterMaxLength)
    (hoffset : offset + cryptoParameterMaxLength * tags.length < 2 ^ 32) :
    readValues (h.entries tags offset) offset map (tags.flatMap h.value ++ more) =
      (.ok (tags.foldl (fun m t => m.insert t (h.value t)) map), more) := by
  induction tags generalizing offset map with
  | nil => rfl
  | cons t rest ih =>
    have hlen := hvalues t mem_cons_self
    rw [length_cons, Nat.mul_succ] at hoffset
    have hend : (offset + (h.value t).length) % 2 ^ 32 = offset + (h.value t).length :=
      Nat.mod_eq_of_lt (by omega)
    have hsize : (offset + (h.value t).length + 2 ^ 32 - offset) % 2 ^ 32 = (h.value t).length := by
      omega
    rw [entries, hend, readValues, hsize, if_neg (by omega), flatMap_cons, append_assoc]
    refine (bind_of_ok (readFull_append _ _)).trans ?_
    exact ih _ _ (fun other hother => hvalues other (mem_cons_of_mem _ hother)) (by omega)

theorem lookup_foldl_insert (tags : List Tag) (map : TagMap) (t : Tag) :
    (tags.foldl (fun m t => m.insert t (h.value t)) map).lookup t =
      if t ∈ tags then some (h.value t) else map.lookup t := by
  induction tags generalizing map with
  | nil => rfl
  | cons first rest ih =>
    rw [foldl_cons, ih]
    by_cases hrest : t ∈ rest
    · rw [if_pos hrest, if_pos (mem_cons_of_mem _ hrest)]
    · by_cases hfirst : t = first
      · subst hfirst
        simp [hrest]
      · simp [hrest, hfirst, Finmap.lookup_insert_of_ne]

theorem foldl_insert_getTagsSorted :
    h.getTagsSorted.foldl (fun m t => m.insert t (h.value t)) ∅ = h.data := by
  refine Finmap.ext_lookup fun t => ?_
  rw [lookup_foldl_insert]
  have hmem : t ∈ h.getTagsSorted ↔ t ∈ h.data := by
    rw [getTagsSorted, Finset.mem_sort, Finmap.mem_keys]
  by_cases ht : t ∈ h.data
  · obtain ⟨v, hv⟩ := Finmap.mem_iff.mp ht
    rw [if_pos (hmem.mpr ht), HandshakeMessage.value, hv]
    rfl
  · rw [if_neg (mt hmem.mp ht), Finmap.lookup_eq_none.mpr ht]
    rfl

theorem parse_encoded (more : List UInt8) (hentries : h.data.keys.card ≤ cryptoMaxParams)
    (hvalues : ∀ t v, h.data.lookup t = some v → v.length ≤ cryptoParameterMaxLength) :
    parseHandshakeMessage (h.encoded ++ more) = (.ok h, more) := by
  have hlength := length_getTagsSorted h
  have hmax : cryptoMaxParams = 128 := rfl
  have hmaxLength : cryptoParameterMaxLength = 4000 := rfl
  have hfull : ∀ (count value : Nat) (rest : List UInt8),
      readFull count (littleEndian.bytes count value ++ rest) =
        (.ok (littleEndian.bytes count value), rest) := by
    intro count value rest
    simpa using readFull_append (littleEndian.bytes count value) rest
  have htag : uint32At (littleEndian.bytes 4 h.tag.val) 0 = h.tag.val := by
    simpa using uint32At_append [] [] h.tag.isLt
  -- the two bytes behind the number of entries are zero
  have hcount : littleEndian.bytes 2 h.data.keys.card ++ littleEndian.bytes 2 0 =
      littleEndian.bytes 4 h.data.keys.card := by
    have hsmall : h.data.keys.card / 256 = 0 := Nat.div_eq_of_lt (by omega)
    simp only [bytes, lowBytes, hsmall, Nat.zero_div, cons_append, nil_append]
  have hpairs : uint32At (littleEndian.bytes 4 h.data.keys.card) 0 = h.data.keys.card := by
    have hlt : h.data.keys.card < 2 ^ 32 := by omega
    simpa using uint32At_append [] [] hlt
  have hentry := map_entryAt (entries_lt h h.getTagsSorted 0)
  rw [length_entries, hlength] at hentry
  have hindex : h.data.keys.card * 8 =
      ((h.entries h.getTagsSorted 0).flatMap encodeEntry).length := by
    rw [length_index, length_entries, hlength, Nat.mul_comm]
  have hread := readValues_entries h h.getTagsSorted more 0 ∅ (fun t _ => by
    cases hv : h.data.lookup t with
    | none => simp [HandshakeMessage.value, hv]
    | some v => simpa [HandshakeMessage.value, hv] using hvalues t v hv)
    (by rw [hlength, hmaxLength]; omega)
  rw [foldl_insert_getTagsSorted, ← hentry] at hread
  unfold parseHandshakeMessage encoded
  rw [← append_assoc (littleEndian.bytes 2 _), hcount]
  simp only [append_assoc]
  refine (bind_of_ok (hfull 4 _ _)).trans ((bind_of_ok (hfull 4 _ _)).trans ?_)
  rw [hpairs, if_neg (by omega), htag, Fin.ofNat_val_eq_self]
  unfold readEntries
  rw [hindex]
  exact (bind_of_ok (readFull_append _ _)).trans (bind_of_ok hread)

end RoundTrip

section Bounds

theorem uint32At_lt (data : List UInt8) (pos : Nat) : uint32At data pos < 2 ^ 32 := by
  have hle : 256 ^ ((data.drop pos).take 4).length ≤ 256 ^ 4 :=
    Nat.pow_le_pow_right (by norm_num) (length_take_le _ _)
  exact (ofLowBytes_lt _).trans_le hle

theorem uint32At_slice (stream : List UInt8) {start count pos : Nat} (hpos : pos + 4 ≤ count) :
    uint32At ((stream.drop start).take count) pos = uint32At stream (start + pos) := by
  rw [uint32At, uint32At, drop_take, take_take, drop_drop, Nat.min_eq_left (by omega)]

theorem readFull_cases (count : Nat) (stream : List UInt8) :
    readFull count stream = (.ok (stream.take count), stream.drop count) ∨
      ∃ err, readFull count stream = (.error err, stream.drop count) := by
  unfold readFull
  by_cases hcount : count ≤ stream.length
  · exact Or.inl (if_pos hcount)
  · rw [if_neg hcount, drop_eq_nil_of_le (by omega)]
    exact Or.inr ⟨_, rfl⟩

def Reads (stream rest : List UInt8) (bound : Nat) : Prop :=
  ∃ count ≤ bound, rest = stream.drop count

-- The offsets stay so small that an earlier one cannot come out as a short value.
theorem readValues_spec (list : List (Tag × Nat)) (dataStart : Nat) (map : TagMap)
    (stream : List UInt8) (hlist : ∀ entry ∈ list, entry.2 < 2 ^ 32)
    (hstart : dataStart + cryptoParameterMaxLength * list.length < 2 ^ 31) :
    Reads stream (readValues list dataStart map stream).2
        (cryptoParameterMaxLength * list.length) ∧
      ∀ result, (readValues list dataStart map stream).1 = .ok result →
        (dataStart :: list.map Prod.snd).IsChain (· ≤ ·) := by
  have hmaxLength : cryptoParameterMaxLength = 4000 := rfl
  induction list generalizing dataStart map stream with
  | nil => exact ⟨⟨0, Nat.zero_le _, rfl⟩, fun _ _ => .singleton _⟩
  | cons entry rest ih =>
    obtain ⟨tag, dataEnd⟩ := entry
    have hend : dataEnd < 2 ^ 32 := hlist (tag, dataEnd) mem_cons_self
    rw [length_cons, Nat.mul_succ] at hstart ⊢
    generalize hlen : (dataEnd + 2 ^ 32 - dataStart) % 2 ^ 32 = dataLen
    rcases Nat.lt_or_ge cryptoParameterMaxLength dataLen with hlong | hshort
    · rw [readValues, hlen, if_pos hlong]
      exact ⟨⟨0, Nat.zero_le _, rfl⟩, fun _ hok => by cases hok⟩
    have hnot : ¬dataLen > cryptoParameterMaxLength := Nat.not_lt.mpr hshort
    rcases readFull_cases dataLen stream with hread | ⟨err, hread⟩
    · have hrun : readValues ((tag, dataEnd) :: rest) dataStart map stream =
          readValues rest dataEnd (map.insert tag (stream.take dataLen)) (stream.drop dataLen) := by
        rw [readValues, hlen, if_neg hnot]
        exact bind_of_ok hread
      obtain ⟨⟨more, hmore, hrest⟩, hoffsets⟩ := ih dataEnd (map.insert tag (stream.take dataLen))
        (stream.drop dataLen) (fun other hother => hlist other (mem_cons_of_mem _ hother))
        (by omega)
      rw [hrun]
      refine ⟨⟨dataLen + more, by omega, by rw [hrest, drop_drop]⟩, fun result hok => ?_⟩
      exact isChain_cons_cons.mpr ⟨by omega, hoffsets result hok⟩
    · have hrun : readValues ((tag, dataEnd) :: rest) dataStart map stream =
          (.error err, stream.drop dataLen) := by
        rw [readValues, hlen, if_neg hnot]
        exact bind_of_error hread
      rw [hrun]
      exact ⟨⟨dataLen, by omega, rfl⟩, fun _ hok => by cases hok⟩

-- The reader keeps to its limits, and accepts only an index whose offsets ascend. The number of
-- entries is behind the tag of the message.
structure Bounded (stream : List UInt8)
    (outcome : Except MessageError HandshakeMessage × List UInt8) : Prop where
  reads : Reads stream outcome.2
    (8 + 8 * cryptoMaxParams + cryptoMaxParams * cryptoParameterMaxLength)
  ascending : ∀ message, outcome.1 = .ok message →
    ((range (uint32At stream 4)).map fun i => uint32At stream (8 + (8 * i + 4))).IsChain (· ≤ ·)

theorem Bounded.error {stream : List UInt8} (err : MessageError) {count : Nat}
    (hcount : count ≤ 8 + 8 * cryptoMaxParams) : Bounded stream (.error err, stream.drop count) :=
  ⟨⟨count, Nat.le_add_right_of_le hcount, rfl⟩, fun _ hok => by cases hok⟩

theorem readEntries_bounded (stream : List UInt8) (messageTag : Tag)
    (hfew : uint32At stream 4 ≤ cryptoMaxParams) :
    Bounded stream (readEntries messageTag (uint32At stream 4) (stream.drop 8)) := by
  have hmax : cryptoMaxParams = 128 := rfl
  have hmaxLength : cryptoParameterMaxLength = 4000 := rfl
  generalize hcount : uint32At stream 4 = nPairs at hfew
  rcases readFull_cases (nPairs * 8) (stream.drop 8) with hindex | ⟨err, hindex⟩
  swap
  · rw [readEntries, bind_of_error hindex, drop_drop]
    exact Bounded.error err (by omega)
  generalize hlist : (range nPairs).map (entryAt ((stream.drop 8).take (nPairs * 8))) = list
  have hlength : list.length = nPairs := by rw [← hlist, length_map, length_range]
  have hends : list.map Prod.snd = (range nPairs).map fun i => uint32At stream (8 + (8 * i + 4)) := by
    rw [← hlist, map_map]
    refine map_congr_left fun i hi => uint32At_slice stream ?_
    have := mem_range.mp hi
    omega
  have hread := readValues_spec list 0 ∅ ((stream.drop 8).drop (nPairs * 8)) (fun entry hentry => by
    obtain ⟨i, -, rfl⟩ := mem_map.mp (hlist ▸ hentry)
    exact uint32At_lt _ _) (by rw [hlength, hmaxLength]; omega)
  generalize hvalues : readValues list 0 ∅ ((stream.drop 8).drop (nPairs * 8)) = outcome at hread
  obtain ⟨result, rest⟩ := outcome
  obtain ⟨⟨count, hbound, hrest⟩, hascending⟩ := hread
  have hreads : Reads stream rest
      (8 + 8 * cryptoMaxParams + cryptoMaxParams * cryptoParameterMaxLength) := by
    rw [hlength] at hbound
    refine ⟨8 + (nPairs * 8 + count), by rw [hmaxLength] at *; omega, ?_⟩
    rw [show rest = _ from hrest, drop_drop, drop_drop]
  rw [readEntries, bind_of_ok hindex, hlist]
  cases result with
  | error err =>
    rw [bind_of_error hvalues]
    exact ⟨hreads, fun _ hok => by cases hok⟩
  | ok resultMap =>
    rw [bind_of_ok hvalues]
    refine ⟨hreads, fun _ _ => ?_⟩
    rw [hcount, ← hends]
    exact (hascending resultMap rfl).tail

theorem parse_bounded (stream : List UInt8) : Bounded stream (parseHandshakeMessage stream) := by
  have hmax : cryptoMaxParams = 128 := rfl
  have hpairs : uint32At ((stream.drop 4).take 4) 0 = uint32At stream 4 :=
    uint32At_slice stream (Nat.le_refl 4)
  unfold parseHandshakeMessage
  rcases readFull_cases 4 stream with htag | ⟨err, htag⟩
  swap
  · rw [bind_of_error htag]
    exact Bounded.error err (by omega)
  rw [bind_of_ok htag]
  rcases readFull_cases 4 (stream.drop 4) with hnumber | ⟨err, hnumber⟩
  swap
  · rw [bind_of_error hnumber, drop_drop]
    exact Bounded.error err (by omega)
  rw [bind_of_ok hnumber, drop_drop, hpairs]
  by_cases hmany : uint32At stream 4 > cryptoMaxParams
  · rw [if_pos hmany]
    exact Bounded.error _ (by omega)
  · rw [if_neg hmany]
    exact readEntries_bounded stream _ (Nat.le_of_not_lt hmany)

end Bounds

-- What is written behind any buffer is read back, and nothing else is read. A message is only
-- accepted with offsets in order, and the reader never goes beyond its limits.
theorem handshake_messages_survive :
    (∀ (h : HandshakeMessage) (b more : List UInt8), h.data.keys.card ≤ cryptoMaxParams →
      (∀ t v, h.data.lookup t = some v → v.length ≤ cryptoParameterMaxLength) →
      ∃ appended, h.write b = b ++ appended ∧
        parseHandshakeMessage (appended ++ more) = (.ok h, more)) ∧
    ∀ stream, Bounded stream (parseHandshakeMessage stream) :=
  ⟨fun h b more hentries hvalues =>
    ⟨h.encoded, write_eq h b, parse_encoded h more hentries hvalues⟩, parse_bounded⟩

theorem handshake_messages_survive_example :
    let h : HandshakeMessage := ⟨5, Finmap.insert 3 [4] (Finmap.singleton 7 [1, 2])⟩
    ∃ appended, h.write [9] = [9] ++ appended ∧
      parseHandshakeMessage (appended ++ [6]) = (.ok h, [6]) := by
  refine handshake_messages_survive.1 _ [9] [6] (by decide +kernel) fun t v hv => ?_
  have ht : t = 3 ∨ t = 7 := by
    simpa using Finmap.mem_of_lookup_eq_some hv
  rcases ht with rfl | rfl
  · rw [Finmap.lookup_insert] at hv
    obtain rfl := Option.some.inj hv
    decide
  · rw [Finmap.lookup_insert_of_ne _ (by decide), Finmap.lookup_singleton_eq] at hv
    obtain rfl := Option.some.inj hv
    decide

end MpQuic.Handshake
