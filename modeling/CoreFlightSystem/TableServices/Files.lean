import CoreFlightSystem.ExecutiveServices.Crc
import CoreFlightSystem.FileServices.Header
import CoreFlightSystem.TableServices.State

/-!
# Table files

A table file holds the standard header, a header that names the table and says which of its bytes
follow, and these bytes. `CFE_TBL_LoadFromFile` reads such a file into a working buffer, and
`CFE_TBL_DumpToFile` writes one.
-/

open ByteOrder ExecutiveServices FileServices Osal

namespace TableServices

/-! ## Results -/

/-- `CFE_SUCCESS`. -/
def success : Int32 := 0

/-- `CFE_ES_ERR_RESOURCEID_NOT_VALID`. -/
def errResourceIdNotValid : Int32 := 0xc4000001

def errInvalidHandle : Int32 := 0xcc000001
def errInvalidName : Int32 := 0xcc000002
def errInvalidSize : Int32 := 0xcc000003
def infoUpdatePending : Int32 := 0x4c000004
def errNeverLoaded : Int32 := 0xcc000005
def errRegistryFull : Int32 := 0xcc000006
def warnDuplicate : Int32 := 0x4c000007
def errNoAccess : Int32 := 0xcc000008
def errUnregistered : Int32 := 0xcc000009
def errHandlesFull : Int32 := 0xcc00000b
def errDuplicateDiffSize : Int32 := 0xcc00000c
def errDuplicateNotOwned : Int32 := 0xcc00000d
def infoUpdated : Int32 := 0x4c00000e
def errNoBufferAvail : Int32 := 0xcc00000f
def errDumpOnly : Int32 := 0xcc000010
def errIllegalSrcType : Int32 := 0xcc000011
def errLoadInProgress : Int32 := 0xcc000012
def errFileTooLarge : Int32 := 0xcc000014
def warnShortFile : Int32 := 0x4c000015
def errBadContentId : Int32 := 0xcc000016
def infoNoUpdatePending : Int32 := 0x4c000017
def infoTableLocked : Int32 := 0x4c000018
def infoValidationPending : Int32 := 0x4c000019
def infoNoValidationPending : Int32 := 0x4c00001a
def errBadSubtypeId : Int32 := 0xcc00001b
def errNoStdHeader : Int32 := 0xcc00001d
def errNoTblHeader : Int32 := 0xcc00001e
def errFilenameTooLong : Int32 := 0xcc00001f
def errFileForWrongTable : Int32 := 0xcc000020
def errLoadIncomplete : Int32 := 0xcc000021
def warnPartialLoad : Int32 := 0x4c000022
def errPartialLoad : Int32 := 0xcc000023
def infoDumpPending : Int32 := 0x4c000024
def errInvalidOptions : Int32 := 0xcc000025
def warnNotCritical : Int32 := 0x4c000026
def infoRecoveredTbl : Int32 := 0x4c000027
def errAccess : Int32 := 0xcc00002c
def badArgument : Int32 := 0xcc00002d

/-- `CFE_TBL_CmdProcRet_t`: which counter of commands goes up. -/
inductive CmdProcRet
  | dontIncCtr
  | incErrCtr
  | incCmdCtr
  deriving DecidableEq

/-! ## The header of a table file -/

/-- `CFE_FS_SubType_TBL_IMG`. -/
def subTypeTblImg : UInt32 := 8

/-- `sizeof(CFE_TBL_File_Hdr_t)`. -/
def fileHdrSize : ℕ := 52

/-- `CFE_TBL_File_Hdr_t`. -/
@[ext]
structure FileHdr where
  reserved : UInt32
  offset : UInt32
  numBytes : UInt32
  tableName : List UInt8
  length_tableName : tableName.length = maxFullNameLen

namespace FileHdr

variable (o : Order) (h : FileHdr)

/-- `CFE_TBL_ByteSwapTblHeader`, on a machine of either order. -/
def byteSwap : FileHdr :=
  { h with
    reserved := o.swap h.reserved
    offset := o.swap h.offset
    numBytes := o.swap h.numBytes }

def toBytes : List UInt8 :=
  o.bytes h.reserved ++ (o.bytes h.offset ++ (o.bytes h.numBytes ++ h.tableName))

def ofBytes (bs : List UInt8) : FileHdr where
  reserved := o.word (bs.take 4)
  offset := o.word ((bs.drop 4).take 4)
  numBytes := o.word ((bs.drop 8).take 4)
  tableName := (bs.drop 12).takeD maxFullNameLen 0
  length_tableName := List.takeD_length _ _ _

def terminated : FileHdr :=
  { h with
    tableName := h.tableName.set (maxFullNameLen - 1) 0
    length_tableName := by rw [List.length_set, h.length_tableName] }

def name : List UInt8 := CString.chars maxFullNameLen h.tableName

@[simp] theorem length_toBytes : (h.toBytes o).length = fileHdrSize := by
  simp [toBytes, h.length_tableName, maxFullNameLen, fileHdrSize]

@[simp] theorem ofBytes_toBytes : ofBytes o (h.toBytes o) = h := by
  have hname : h.tableName.takeD maxFullNameLen 0 = h.tableName := by
    rw [List.takeD_eq_take _ h.length_tableName.ge, List.take_of_length_le h.length_tableName.le]
  simp [ofBytes, toBytes, hname]

/-- **The swap is undone by a swap.** -/
@[simp] theorem byteSwap_byteSwap : (h.byteSwap o).byteSwap o = h := by
  simp [byteSwap]

theorem toBytes_swapped :
    (if o = .little then h.byteSwap o else h).toBytes o = h.toBytes .big := by
  cases o with
  | little => simp [byteSwap, toBytes, Order.other]
  | big => rfl

theorem swapped_ofBytes :
    (if o = .little then (ofBytes o (h.toBytes .big)).byteSwap o
      else ofBytes o (h.toBytes .big)) = h := by
  cases o with
  | little =>
    have hbytes : h.toBytes .big = (h.byteSwap .little).toBytes .little :=
      (toBytes_swapped .little h).symm
    rw [if_pos rfl, hbytes, ofBytes_toBytes, byteSwap_byteSwap]
  | big => rw [if_neg (by decide), ofBytes_toBytes]

end FileHdr

/-! ## Reading -/

/-- `CFE_TBL_ReadHeaders`: the two headers and the file behind them, or an error. The structures of
the caller are not looked at unless they have been read in full. -/
def readHeaders (o : Order) (f : OpenFile) : Except Int32 (Header × FileHdr × OpenFile) :=
  let (status, std, f) := readHeader o (initHeader [] 0) f
  if status ≠ Int32.ofNat stdHeaderSize then .error errNoStdHeader
  else if std.contentType ≠ fileContentId then .error errBadContentId
  else if std.subType ≠ subTypeTblImg then .error errBadSubtypeId
  else
    let (status, bytes, f) := f.read fileHdrSize
    if status ≠ Int32.ofNat fileHdrSize then .error errNoTblHeader
    else
      let hdr := FileHdr.ofBytes o bytes
      let hdr := if o = .little then hdr.byteSwap o else hdr
      .ok (std, hdr.terminated, f)

/-- What a load leaves: the result, the description of the working buffer, and memory. -/
structure Loaded where
  status : Int32
  buff : LoadBuff
  mem : Memory

/-- The check that a load puts into the description of its buffer. -/
def bufferCrc (mem : Memory) (ptr size : ℕ) : UInt32 :=
  calculateCrc (Slice.slice mem ptr (ptr + size)) 0 .crc16

/-- The end of `CFE_TBL_LoadFromFile`, behind the headers. The offset and the number of bytes are
added as 32-bit words, and what `OS_read` returns is compared as one. -/
def loadImage (t : Target) (buff : LoadBuff) (tbl : RegistryRec) (filename : List UInt8)
    (mem : Memory) (std : Header) (hdr : FileHdr) (f : OpenFile) : Loaded :=
  if tbl.name ≠ hdr.name then ⟨errFileForWrongTable, buff, mem⟩
  else if tbl.size < (hdr.offset + hdr.numBytes).toNat then ⟨errFileTooLarge, buff, mem⟩
  else
    let status :=
      if 0 < hdr.offset then warnPartialLoad
      else if hdr.numBytes.toNat < tbl.size then warnShortFile
      else success
    let (numBytes, bytes, f) := f.read hdr.numBytes.toNat
    let mem := Slice.copy mem (t.advance buff.bufferPtr hdr.offset.toNat) bytes
    if numBytes.toUInt32 ≠ hdr.numBytes then ⟨errLoadIncomplete, buff, mem⟩
    -- another byte means that there is more data than the header claims
    else if (f.read 1).1.toUInt32 = 1 then ⟨errFileTooLarge, buff, mem⟩
    else
      { status := status
        mem := mem
        buff :=
          { buff with
            dataSource := filename
            fileCreateTimeSecs := std.timeSeconds
            fileCreateTimeSubSecs := std.timeSubSeconds
            crc := bufferCrc mem buff.bufferPtr tbl.size } }

/-- `CFE_TBL_LoadFromFile`; `file` is what `OS_OpenCreate` opens. -/
def loadFromFile (t : Target) (buff : LoadBuff) (tbl : RegistryRec) (filename : List UInt8)
    (file : Option OpenFile) (mem : Memory) : Loaded :=
  if maxPathLen - 1 < filename.length then ⟨errFilenameTooLong, buff, mem⟩
  else
    match file with
    | none => ⟨errAccess, buff, mem⟩
    | some f =>
      match readHeaders t.byteOrder f with
      | .error status => ⟨status, buff, mem⟩
      | .ok (std, hdr, f) => loadImage t buff tbl filename mem std hdr f

/-! ## Writing -/

def ascii (s : String) : List UInt8 := s.toList.map fun c => UInt8.ofNat c.toNat

/-- The headers of a dump file, before they are written. -/
def dumpStdHeader : Header := initHeader (ascii "Table Dump Image") subTypeTblImg

def dumpFileHdr (tableName : List UInt8) (size : ℕ) : FileHdr where
  reserved := 0
  offset := 0
  numBytes := UInt32.ofNat size
  tableName := CString.padded maxFullNameLen (tableName.take (maxFullNameLen - 1))
  length_tableName := CString.length_padded _ _

/-- `CFE_TBL_DumpToFile`: the result and the file; `file` is what `OS_OpenCreate` creates. Whether
there was such a file before matters for the text of an event only. -/
def dumpToFile (t : Target) (stamp : Stamp) (tableName image : List UInt8)
    (file : Option OpenFile) : CmdProcRet × Option OpenFile :=
  match file with
  | none => (.incErrCtr, none)
  | some f =>
    let (status, _, f) := writeHeader t.byteOrder stamp dumpStdHeader f
    if status ≠ Int32.ofNat stdHeaderSize then (.incErrCtr, some f)
    else
      let hdr := dumpFileHdr tableName image.length
      let hdr := if t.byteOrder = .little then hdr.byteSwap t.byteOrder else hdr
      let (status, f) := f.write (hdr.toBytes t.byteOrder)
      if status ≠ Int32.ofNat fileHdrSize then (.incErrCtr, some f)
      else
        let (status, f) := f.write image
        if status.toInt ≠ image.length then (.incErrCtr, some f) else (.incCmdCtr, some f)

/-! ## From a dump to a load -/

section RoundTrip

variable {o : Order} {std : Header} {hdr : FileHdr} {image : List UInt8}

theorem readHeaders_written (hcontent : std.contentType = fileContentId)
    (hsub : std.subType = subTypeTblImg) :
    readHeaders o ⟨std.toBytes .big ++ (hdr.toBytes .big ++ image), 0, []⟩ =
      .ok (std, hdr.terminated,
        ⟨std.toBytes .big ++ (hdr.toBytes .big ++ image), stdHeaderSize + fileHdrSize, []⟩) := by
  generalize hbytes : std.toBytes .big ++ (hdr.toBytes .big ++ image) = content
  have hdrop : content.drop stdHeaderSize = hdr.toBytes .big ++ image := by
    rw [← hbytes, List.drop_left' (Header.length_toBytes .big std)]
  have hstd : readHeader o (initHeader [] 0) ⟨content, 0, []⟩ =
      (Int32.ofNat stdHeaderSize, std, ⟨content, stdHeaderSize, []⟩) := by
    rw [← hbytes]
    exact readHeader_written o _ std _
  have hread : (⟨content, stdHeaderSize, []⟩ : OpenFile).read fileHdrSize =
      (Int32.ofNat fileHdrSize, hdr.toBytes .big,
        ⟨content, stdHeaderSize + fileHdrSize, []⟩) := by
    have hsize : ValidSize (hdr.toBytes .big).length := by
      rw [FileHdr.length_toBytes]
      decide
    have := OpenFile.read_next hsize hdrop
    rwa [FileHdr.length_toBytes] at this
  simp only [readHeaders, hstd, hcontent, hsub, hread, ne_eq, not_true_eq_false, if_false,
    FileHdr.swapped_ofBytes]

/-- **A dump file** holds the headers in the order of the system, and the image. -/
theorem dumpToFile_content (t : Target) (stamp : Stamp) (tableName : List UInt8)
    (hsize : ValidSize image.length) :
    dumpToFile t stamp tableName image (some ⟨[], 0, []⟩) =
      (.incCmdCtr, some ⟨(dumpStdHeader.stamped stamp).toBytes .big ++
        ((dumpFileHdr tableName image.length).toBytes .big ++ image),
        stdHeaderSize + fileHdrSize + image.length, []⟩) := by
  generalize hstd : dumpStdHeader.stamped stamp = std
  generalize hhdr : dumpFileHdr tableName image.length = hdr
  have hlen : (std.toBytes .big).length = stdHeaderSize := Header.length_toBytes .big std
  have hlen' : (hdr.toBytes .big).length = fileHdrSize := FileHdr.length_toBytes .big hdr
  have hwrite : writeHeader t.byteOrder stamp dumpStdHeader ⟨[], 0, []⟩ =
      (Int32.ofNat stdHeaderSize, std, ⟨std.toBytes .big, stdHeaderSize, []⟩) := by
    simpa [hstd] using writeHeader_written t.byteOrder stamp dumpStdHeader [] 0
  have hheader : (⟨std.toBytes .big, stdHeaderSize, []⟩ : OpenFile).write (hdr.toBytes .big) =
      (Int32.ofNat fileHdrSize,
        ⟨std.toBytes .big ++ hdr.toBytes .big, stdHeaderSize + fileHdrSize, []⟩) := by
    have hvalid : ValidSize (hdr.toBytes .big).length := by
      rw [hlen']
      decide
    have := @OpenFile.write_append (std.toBytes .big) _ hvalid
    rwa [hlen, hlen'] at this
  have himage : (⟨std.toBytes .big ++ hdr.toBytes .big, stdHeaderSize + fileHdrSize, []⟩ :
      OpenFile).write image =
      (Int32.ofNat image.length, ⟨std.toBytes .big ++ (hdr.toBytes .big ++ image),
        stdHeaderSize + fileHdrSize + image.length, []⟩) := by
    have := @OpenFile.write_append (std.toBytes .big ++ hdr.toBytes .big) _ hsize
    rwa [List.length_append, hlen, hlen', List.append_assoc] at this
  have hresult : (Int32.ofNat image.length).toInt = image.length :=
    Int32.toInt_ofNat_of_lt (by have := hsize.2; omega)
  simp only [dumpToFile, hwrite, hhdr, FileHdr.toBytes_swapped, hheader, himage, hresult, ne_eq,
    not_true_eq_false, if_false]

theorem dumpFileHdr_name {tableName : List UInt8} (hname : 0 ∉ tableName)
    (hlen : tableName.length < maxFullNameLen) (size : ℕ) :
    (dumpFileHdr tableName size).terminated.name = tableName := by
  have htake : tableName.take (maxFullNameLen - 1) = tableName :=
    List.take_of_length_le (by omega)
  have hlast : (CString.padded maxFullNameLen tableName).set (maxFullNameLen - 1) 0 =
      CString.padded maxFullNameLen tableName := by
    refine List.ext_getElem (by simp) fun i hi hi' => ?_
    rw [List.getElem_set]
    split
    · next h =>
      -- the last byte is one of the padding
      subst h
      have hge : (tableName.take maxFullNameLen).length ≤ maxFullNameLen - 1 := by
        rw [List.length_take]
        omega
      simp [CString.padded, List.getElem_append_right hge]
    · rfl
  rw [FileHdr.name, FileHdr.terminated, dumpFileHdr]
  simp only [htake, hlast]
  rw [CString.chars_padded hname, List.take_of_length_le (by omega)]

theorem loadImage_dump {t : Target} {tbl : RegistryRec} (hname : 0 ∉ tbl.name)
    (hlen : tbl.name.length < maxFullNameLen) (hsize : ValidSize image.length)
    (hrec : tbl.size = image.length) {buff : LoadBuff}
    (hptr : buff.bufferPtr < 2 ^ t.addressBits) (filename : List UInt8) (mem : Memory)
    {content : List UInt8} {position : ℕ} (hdrop : content.drop position = image) :
    (loadImage t buff tbl filename mem std
        (dumpFileHdr tbl.name image.length).terminated ⟨content, position, []⟩).status = success ∧
      (loadImage t buff tbl filename mem std
        (dumpFileHdr tbl.name image.length).terminated ⟨content, position, []⟩).mem =
          Slice.copy mem buff.bufferPtr image := by
  obtain ⟨hpos, hlt⟩ := hsize
  have hbytes : (UInt32.ofNat image.length).toNat = image.length :=
    UInt32.toNat_ofNat_of_lt' (by simp [UInt32.size]; omega)
  have hread : (⟨content, position, []⟩ : OpenFile).read image.length =
      (Int32.ofNat image.length, image, ⟨content, position + image.length, []⟩) :=
    OpenFile.read_next ⟨hpos, hlt⟩ (by rw [hdrop, List.append_nil])
  have hend : content.length ≤ position + image.length := by
    have := congrArg List.length hdrop
    rw [List.length_drop] at this
    omega
  have hextra : (⟨content, position + image.length, []⟩ : OpenFile).read 1 =
      (0, [], ⟨content, position + image.length, []⟩) :=
    OpenFile.read_end (by decide) hend
  have hresult : (Int32.ofNat image.length).toUInt32 = UInt32.ofNat image.length := rfl
  have hsum : ((dumpFileHdr tbl.name image.length).terminated.offset +
      (dumpFileHdr tbl.name image.length).terminated.numBytes).toNat = image.length := by
    simp [dumpFileHdr, FileHdr.terminated, hbytes]
  have hadvance : t.advance buff.bufferPtr 0 = buff.bufferPtr := by
    rw [Target.advance, Nat.add_zero, Nat.mod_eq_of_lt hptr]
  simp only [loadImage, dumpFileHdr_name hname hlen, ne_eq, not_true_eq_false, if_false, hsum, hrec,
    Nat.lt_irrefl]
  have hnone : Int32.toUInt32 0 ≠ 1 := by decide
  simp only [FileHdr.terminated, dumpFileHdr, hbytes, hread, hresult, hextra]
  simp [hadvance, hnone]

end RoundTrip

/-- **From a dump to a load.** The file that a table is dumped to is accepted for the same table,
as a load of all its bytes, and puts the image that was dumped into the working buffer; nothing
else in memory changes. The swap of the header undoes itself. -/
theorem dump_load (t : Target) (stamp : Stamp) {tableName image filename : List UInt8}
    (hname : 0 ∉ tableName) (hlen : tableName.length < maxFullNameLen)
    (hsize : ValidSize image.length) {tbl : RegistryRec} (hrec : tbl.name = tableName)
    (hrecSize : tbl.size = image.length) (hfilename : filename.length < maxPathLen)
    {buff : LoadBuff} (hptr : buff.bufferPtr < 2 ^ t.addressBits) (mem : Memory) :
    ∃ f, dumpToFile t stamp tableName image (some ⟨[], 0, []⟩) = (.incCmdCtr, some f) ∧
      (loadFromFile t buff tbl filename (some ⟨f.content, 0, []⟩) mem).status = success ∧
      (loadFromFile t buff tbl filename (some ⟨f.content, 0, []⟩) mem).mem =
        Slice.copy mem buff.bufferPtr image ∧
      Slice.slice (loadFromFile t buff tbl filename (some ⟨f.content, 0, []⟩) mem).mem
        buff.bufferPtr (buff.bufferPtr + tbl.size) = image ∧
      ∀ hdr : FileHdr, (hdr.byteSwap t.byteOrder).byteSwap t.byteOrder = hdr := by
  subst hrec
  have hload : ∀ content, content = (dumpStdHeader.stamped stamp).toBytes .big ++
      ((dumpFileHdr tbl.name image.length).toBytes .big ++ image) →
      (loadFromFile t buff tbl filename (some ⟨content, 0, []⟩) mem).status = success ∧
        (loadFromFile t buff tbl filename (some ⟨content, 0, []⟩) mem).mem =
          Slice.copy mem buff.bufferPtr image := by
    rintro _ rfl
    have hdrop : ((dumpStdHeader.stamped stamp).toBytes .big ++
        ((dumpFileHdr tbl.name image.length).toBytes .big ++ image)).drop
          (stdHeaderSize + fileHdrSize) = image := by
      rw [← List.append_assoc]
      exact List.drop_left' (by simp)
    have hshort : ¬ maxPathLen - 1 < filename.length := by omega
    have hcontent : (dumpStdHeader.stamped stamp).contentType = fileContentId := rfl
    have hsub : (dumpStdHeader.stamped stamp).subType = subTypeTblImg := rfl
    simp only [loadFromFile, hshort, if_false, readHeaders_written hcontent hsub]
    exact loadImage_dump hname hlen hsize hrecSize hptr filename mem hdrop
  obtain ⟨hstatus, hmem⟩ := hload _ rfl
  refine ⟨_, dumpToFile_content t stamp tbl.name hsize, hstatus, hmem, ?_,
    fun hdr => hdr.byteSwap_byteSwap t.byteOrder⟩
  rw [hmem, hrecSize]
  exact Slice.slice_copy mem buff.bufferPtr image

/-- A table of three bytes on a machine with the least significant byte first. -/
theorem dump_load_sample :
    ∃ f, dumpToFile ⟨.little, 64⟩ ⟨66, 1, 7, ⟨100, 0⟩⟩ (ascii "APP.TBL") [1, 2, 3]
        (some ⟨[], 0, []⟩) = (.incCmdCtr, some f) ∧
      (loadFromFile ⟨.little, 64⟩ { bufferPtr := 4096 } { name := ascii "APP.TBL", size := 3 }
        (ascii "/ram/tbl.dat") (some ⟨f.content, 0, []⟩) fun _ => 0).status = success := by
  have hname : 0 ∉ ascii "APP.TBL" := by decide
  have hlen : (ascii "APP.TBL").length < maxFullNameLen := by decide
  have hsize : ValidSize ([1, 2, 3] : List UInt8).length := by decide
  have hrec : ({ name := ascii "APP.TBL", size := 3 } : RegistryRec).name = ascii "APP.TBL" := rfl
  have hfilename : (ascii "/ram/tbl.dat").length < maxPathLen := by decide
  have hptr : ({ bufferPtr := 4096 } : LoadBuff).bufferPtr <
      2 ^ (⟨.little, 64⟩ : Target).addressBits := by decide
  obtain ⟨f, hdump, hload, -⟩ :=
    dump_load ⟨.little, 64⟩ ⟨66, 1, 7, ⟨100, 0⟩⟩ hname hlen hsize hrec rfl hfilename hptr fun _ => 0
  exact ⟨f, hdump, hload⟩

end TableServices
