import CoreFlightSystem.Library.ByteOrder
import CoreFlightSystem.Library.CString
import CoreFlightSystem.Osal.OpenFile
import CoreFlightSystem.Time.SysTime

/-!
# The standard file header

Every file of the system begins with a header of 64 bytes: eight words, and a description. In the
file the words have their most significant byte first. On a machine with the other order the
structure is swapped in place before it is written and after it is read.
-/

open ByteOrder Osal TimeServices

namespace FileServices

/-- `CFE_FS_HDR_DESC_MAX_LEN`. -/
def hdrDescMaxLen : ℕ := 32

/-- `sizeof(CFE_FS_Header_t)`. -/
def stdHeaderSize : ℕ := 64

/-- `CFE_FS_FILE_CONTENT_ID`. -/
def fileContentId : UInt32 := 0x63464531

/-- `CFE_FS_Header_t`. -/
@[ext]
structure Header where
  contentType : UInt32
  subType : UInt32
  length : UInt32
  spacecraftID : UInt32
  processorID : UInt32
  applicationID : UInt32
  timeSeconds : UInt32
  timeSubSeconds : UInt32
  description : List UInt8
  length_description : description.length = hdrDescMaxLen

namespace Header

variable (o : Order) (h : Header)

/-- `CFE_FS_ByteSwapCFEHeader`, on a machine of either order. -/
def byteSwap : Header :=
  { h with
    contentType := o.swap h.contentType
    subType := o.swap h.subType
    length := o.swap h.length
    spacecraftID := o.swap h.spacecraftID
    processorID := o.swap h.processorID
    applicationID := o.swap h.applicationID
    timeSeconds := o.swap h.timeSeconds
    timeSubSeconds := o.swap h.timeSubSeconds }

def toBytes : List UInt8 :=
  o.bytes h.contentType ++ (o.bytes h.subType ++ (o.bytes h.length ++ (o.bytes h.spacecraftID ++
    (o.bytes h.processorID ++ (o.bytes h.applicationID ++ (o.bytes h.timeSeconds ++
      (o.bytes h.timeSubSeconds ++ h.description)))))))

def ofBytes (bs : List UInt8) : Header where
  contentType := o.word (bs.take 4)
  subType := o.word ((bs.drop 4).take 4)
  length := o.word ((bs.drop 8).take 4)
  spacecraftID := o.word ((bs.drop 12).take 4)
  processorID := o.word ((bs.drop 16).take 4)
  applicationID := o.word ((bs.drop 20).take 4)
  timeSeconds := o.word ((bs.drop 24).take 4)
  timeSubSeconds := o.word ((bs.drop 28).take 4)
  description := (bs.drop 32).takeD hdrDescMaxLen 0
  length_description := List.takeD_length _ _ _

@[simp] theorem length_toBytes : (h.toBytes o).length = stdHeaderSize := by
  simp [toBytes, h.length_description, hdrDescMaxLen, stdHeaderSize]

@[simp] theorem ofBytes_toBytes : ofBytes o (h.toBytes o) = h := by
  have hdesc : h.description.takeD hdrDescMaxLen 0 = h.description := by
    rw [List.takeD_eq_take _ h.length_description.ge, List.take_of_length_le
      h.length_description.le]
  simp [ofBytes, toBytes, hdesc]

@[simp] theorem byteSwap_byteSwap : (h.byteSwap o).byteSwap o = h := by
  simp [byteSwap]

theorem toBytes_byteSwap : (h.byteSwap o).toBytes o = h.toBytes o.other := by
  simp [byteSwap, toBytes]

theorem toBytes_swapped :
    (if o = .little then h.byteSwap o else h).toBytes o = h.toBytes .big := by
  cases o with
  | little => exact toBytes_byteSwap .little h
  | big => rfl

theorem swapped_ofBytes :
    (if o = .little then (ofBytes o (h.toBytes .big)).byteSwap o
      else ofBytes o (h.toBytes .big)) = h := by
  cases o with
  | little =>
    have hbytes : h.toBytes .big = (h.byteSwap .little).toBytes .little :=
      (toBytes_byteSwap .little h).symm
    rw [if_pos rfl, hbytes, ofBytes_toBytes, byteSwap_byteSwap]
  | big => rw [if_neg (by decide), ofBytes_toBytes]

end Header

/-- `CFE_FS_ReadHeader`, into a structure that has some content already. -/
def readHeader (o : Order) (hdr : Header) (f : OpenFile) : Int32 × Header × OpenFile :=
  let (result, f) := f.lseek 0
  if result = 0 then
    let (result, bytes, f) := f.read stdHeaderSize
    let hdr := Header.ofBytes o (bytes ++ (hdr.toBytes o).drop bytes.length)
    (result, if o = .little then hdr.byteSwap o else hdr, f)
  else (result, hdr, f)

theorem readHeader_written (o : Order) (hdr h : Header) (rest : List UInt8) :
    readHeader o hdr ⟨h.toBytes .big ++ rest, 0, []⟩ =
      (Int32.ofNat stdHeaderSize, h, ⟨h.toBytes .big ++ rest, stdHeaderSize, []⟩) := by
  have hsize : ValidSize (h.toBytes .big).length := by
    rw [Header.length_toBytes]
    decide
  have hread : (⟨h.toBytes .big ++ rest, 0, []⟩ : OpenFile).read stdHeaderSize =
      (Int32.ofNat stdHeaderSize, h.toBytes .big,
        ⟨h.toBytes .big ++ rest, stdHeaderSize, []⟩) := by
    simpa using OpenFile.read_next hsize (List.drop_zero (l := h.toBytes .big ++ rest))
  have hseek : (⟨h.toBytes .big ++ rest, 0, []⟩ : OpenFile).lseek 0 =
      (0, ⟨h.toBytes .big ++ rest, 0, []⟩) := rfl
  have hnone : (hdr.toBytes o).drop (h.toBytes .big).length = [] :=
    List.drop_of_length_le (by simp)
  simp only [readHeader, hseek, if_pos, hread, hnone, List.append_nil, Header.swapped_ofBytes]

/-- `CFE_FS_InitHeader`. -/
def initHeader (description : List UInt8) (subType : UInt32) : Header where
  contentType := 0
  subType := subType
  length := 0
  spacecraftID := 0
  processorID := 0
  applicationID := 0
  timeSeconds := 0
  timeSubSeconds := 0
  description := CString.padded hdrDescMaxLen (description.take (hdrDescMaxLen - 1))
  length_description := CString.length_padded _ _

/-- What `CFE_FS_WriteHeader` fills in: the identifiers of the spacecraft, of the processor and of
the application, and the time. -/
structure Stamp where
  spacecraftID : UInt32
  processorID : UInt32
  applicationID : UInt32
  time : SysTime

/-- The header with what `CFE_FS_WriteHeader` fills in. -/
def Header.stamped (hdr : Header) (stamp : Stamp) : Header :=
  { hdr with
    spacecraftID := stamp.spacecraftID
    processorID := stamp.processorID
    applicationID := stamp.applicationID
    length := UInt32.ofNat stdHeaderSize
    contentType := fileContentId
    timeSeconds := stamp.time.seconds
    timeSubSeconds := stamp.time.subseconds }

/-- `CFE_FS_WriteHeader`: the result, the structure of the caller, and the file. -/
def writeHeader (o : Order) (stamp : Stamp) (hdr : Header) (f : OpenFile) :
    Int32 × Header × OpenFile :=
  let (result, f) := f.lseek 0
  if result = 0 then
    let hdr := hdr.stamped stamp
    let inFile := if o = .little then hdr.byteSwap o else hdr
    let (result, f) := f.write (inFile.toBytes o)
    (result, if o = .little then inFile.byteSwap o else inFile, f)
  else (result, hdr, f)

theorem writeHeader_written (o : Order) (stamp : Stamp) (hdr : Header) (content : List UInt8)
    (position : ℕ) :
    writeHeader o stamp hdr ⟨content, position, []⟩ =
      (Int32.ofNat stdHeaderSize, hdr.stamped stamp,
        ⟨(hdr.stamped stamp).toBytes .big ++ content.drop stdHeaderSize, stdHeaderSize, []⟩) := by
  have hseek : (⟨content, position, []⟩ : OpenFile).lseek 0 = (0, ⟨content, 0, []⟩) := rfl
  have hwrite : (⟨content, 0, []⟩ : OpenFile).write ((hdr.stamped stamp).toBytes .big) =
      (Int32.ofNat stdHeaderSize,
        ⟨(hdr.stamped stamp).toBytes .big ++ content.drop stdHeaderSize, stdHeaderSize, []⟩) := by
    have hsize : ValidSize ((hdr.stamped stamp).toBytes .big).length := by
      rw [Header.length_toBytes]
      decide
    rw [OpenFile.write, if_pos hsize]
    simp [OpenFile.answer]
  have hback : (if o = .little then
      (if o = .little then (hdr.stamped stamp).byteSwap o else hdr.stamped stamp).byteSwap o
      else if o = .little then (hdr.stamped stamp).byteSwap o else hdr.stamped stamp)
        = hdr.stamped stamp := by
    cases o <;> simp
  simp only [writeHeader, hseek, if_pos, Header.toBytes_swapped, hwrite, hback]

end FileServices
