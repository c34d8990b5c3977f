import CoreFlightSystem.FileServices.Header

/-!
# The header in the file

A file may be written on one machine and read on another. What `CFE_FS_WriteHeader` has put into the
file when it succeeds is read back by `CFE_FS_ReadHeader` when that succeeds, whatever the orders of
the two machines are. `CFE_FS_SetTimestamp` writes the two words of the time at their place in the
file; its result after a write of no bytes is that of a success.
-/

open ByteOrder Osal TimeServices

namespace FileServices

/-- The offset of the member `TimeSeconds` in the structure. -/
def timeOffset : ℕ := 24

/-- `CFE_FS_SetTimestamp`. -/
def setTimestamp (o : Order) (newTimestamp : SysTime) (f : OpenFile) : Int32 × OpenFile :=
  let (result, f) := f.lseek timeOffset
  if result = Int32.ofNat timeOffset then
    let outTimestamp : SysTime :=
      if o = .little then ⟨o.swap newTimestamp.seconds, o.swap newTimestamp.subseconds⟩
      else newTimestamp
    let (result, f) := f.write (o.bytes outTimestamp.seconds)
    if result = 4 then
      let (result, f) := f.write (o.bytes outTimestamp.subseconds)
      if result = 4 then (0, f) else (result, f)
    else (result, f)
  else (result, f)

namespace Header

def withTime (h : Header) (time : SysTime) : Header :=
  { h with timeSeconds := time.seconds, timeSubSeconds := time.subseconds }

theorem toBytes_seconds (o : Order) (h : Header) (x : UInt32) (rest : List UInt8) :
    (h.toBytes o ++ rest).take 24 ++ o.bytes x ++ (h.toBytes o ++ rest).drop 28 =
      ({ h with timeSeconds := x } : Header).toBytes o ++ rest := by
  simp [toBytes, List.take_append, List.take_of_length_le]

theorem toBytes_subseconds (o : Order) (h : Header) (x : UInt32) (rest : List UInt8) :
    (h.toBytes o ++ rest).take 28 ++ o.bytes x ++ (h.toBytes o ++ rest).drop 32 =
      ({ h with timeSubSeconds := x } : Header).toBytes o ++ rest := by
  simp [toBytes, List.take_append, List.take_of_length_le]

end Header

/-! ## The three functions -/

section Functions

variable {o : Order} {stamp : Stamp} {hdr hdr' h : Header} {f f' : OpenFile} {time : SysTime}
  {rest : List UInt8}

/-- A header that has been written lies at the start of the file, with the most significant bytes of
its words first, and the caller has it. -/
theorem writeHeader_eq (hwrite : (writeHeader o stamp hdr f).1 = Int32.ofNat stdHeaderSize) :
    (writeHeader o stamp hdr f).2.1 = hdr.stamped stamp ∧
      (writeHeader o stamp hdr f).2.2.content =
        (hdr.stamped stamp).toBytes .big ++ f.content.drop stdHeaderSize := by
  have hseek : (f.lseek 0).1 = Int32.ofNat 0 → _ := OpenFile.lseek_eq (by decide)
  unfold writeHeader at hwrite ⊢
  dsimp only at hwrite ⊢
  split at hwrite
  · next hzero =>
    obtain ⟨hcontent, hposition⟩ := hseek hzero
    have hlen : ((hdr.stamped stamp).toBytes .big).length = stdHeaderSize :=
      Header.length_toBytes _ _
    have hback : (if o = .little then
        (if o = .little then (hdr.stamped stamp).byteSwap o else hdr.stamped stamp).byteSwap o
        else if o = .little then (hdr.stamped stamp).byteSwap o else hdr.stamped stamp)
          = hdr.stamped stamp := by
      cases o <;> simp
    rw [Header.toBytes_swapped] at hwrite
    rw [if_pos hzero, Header.toBytes_swapped]
    dsimp only
    have hfile := (OpenFile.write_eq (f := (f.lseek 0).2) (by rw [hlen]; decide)
      (by rw [hlen]; exact hwrite)).1
    rw [hcontent, hposition, hlen, List.take_zero, List.nil_append, Nat.zero_add] at hfile
    exact ⟨hback, hfile⟩
  · next hzero =>
    rcases OpenFile.lseek_fst f 0 with herror | hresult
    · rw [herror] at hwrite
      exact absurd hwrite (by decide)
    · exact absurd hresult hzero

theorem readHeader_eq (hcontent : f.content = h.toBytes .big ++ rest)
    (hread : (readHeader o hdr f).1 = Int32.ofNat stdHeaderSize) :
    (readHeader o hdr f).2.1 = h := by
  have hseek : (f.lseek 0).1 = Int32.ofNat 0 → _ := OpenFile.lseek_eq (by decide)
  unfold readHeader at hread ⊢
  dsimp only at hread ⊢
  split at hread
  · next hzero =>
    obtain ⟨hkept, hposition⟩ := hseek hzero
    have hlen : (h.toBytes .big).length = stdHeaderSize := Header.length_toBytes _ _
    rw [if_pos hzero]
    dsimp only at hread ⊢
    obtain ⟨hbytes, hall⟩ := OpenFile.read_eq (by decide) hread
    have hnone : (hdr.toBytes o).drop ((f.lseek 0).2.read stdHeaderSize).2.1.length = [] :=
      List.drop_of_length_le (by rw [hall, Header.length_toBytes])
    have hstart : (f.content.drop 0).take stdHeaderSize = h.toBytes .big := by
      rw [List.drop_zero, hcontent, ← hlen, List.take_left]
    rw [hnone, List.append_nil, hbytes, hkept, hposition, hstart]
    exact Header.swapped_ofBytes o h
  · next hzero =>
    rcases OpenFile.lseek_fst f 0 with herror | hresult
    · rw [herror] at hread
      exact absurd hread (by decide)
    · exact absurd hresult hzero

/-- The operating system lets the function seek, but writes no bytes where it wants to write a
word. -/
def WritesNothing (answers : List (Option ℕ)) : Prop :=
  answers.head? ≠ some none ∧
    (answers.tail.head? = some (some 0) ∨
      (∃ k ≥ 4, answers.tail.head? = some (some k)) ∧ answers.tail.tail.head? = some (some 0))

theorem bytes_outTimestamp (o : Order) (time : SysTime) :
    o.bytes (if o = .little then (⟨o.swap time.seconds, o.swap time.subseconds⟩ : SysTime)
        else time).seconds = Order.big.bytes time.seconds ∧
      o.bytes (if o = .little then (⟨o.swap time.seconds, o.swap time.subseconds⟩ : SysTime)
        else time).subseconds = Order.big.bytes time.subseconds := by
  cases o with
  | little => exact ⟨Order.bytes_swap .little _, Order.bytes_swap .little _⟩
  | big => exact ⟨rfl, rfl⟩

theorem setTimestamp_eq (hcontent : f.content = h.toBytes .big ++ rest)
    (hset : (setTimestamp o time f).1 = 0) (hwrites : ¬ WritesNothing f.answers) :
    (setTimestamp o time f).2.content = (h.withTime time).toBytes .big ++ rest := by
  have hseek : (f.lseek timeOffset).1 = Int32.ofNat timeOffset → _ :=
    OpenFile.lseek_eq (by decide)
  obtain ⟨hseconds, hsubseconds⟩ := bytes_outTimestamp o time
  have htail := OpenFile.answers_lseek f timeOffset
  have hsize : ∀ x, ValidSize (Order.big.bytes x).length := fun x => by
    rw [Order.length_bytes]
    decide
  unfold setTimestamp at hset ⊢
  dsimp only at hset ⊢
  rw [hseconds, hsubseconds] at hset ⊢
  split at hset
  · next hoffset =>
    obtain ⟨hkept, hposition⟩ := hseek hoffset
    rw [if_pos hoffset]
    generalize (f.lseek timeOffset).2 = g at hset hkept hposition htail ⊢
    have hfirst := OpenFile.write_eq (f := g) (hsize time.seconds)
    have hnext := OpenFile.answers_write (f := g) (hsize time.seconds)
    split at hset
    · next hfour =>
      have hall : (g.write (Order.big.bytes time.seconds)).1 =
          Int32.ofNat (Order.big.bytes time.seconds).length := by
        rw [Order.length_bytes]
        exact hfour
      obtain ⟨hcontent₁, hposition₁⟩ := hfirst hall
      rw [hkept, hposition, Order.length_bytes, hcontent, timeOffset,
        Header.toBytes_seconds] at hcontent₁
      rw [hposition, Order.length_bytes] at hposition₁
      have hhead₁ := OpenFile.head_of_write (hsize time.seconds) hall
      rw [if_pos hfour]
      generalize (g.write (Order.big.bytes time.seconds)).2 = g₁
        at hset hcontent₁ hposition₁ hnext ⊢
      have hsecond := OpenFile.write_eq (f := g₁) (hsize time.subseconds)
      split at hset
      · next hfour₁ =>
        obtain ⟨hcontent₂, -⟩ := hsecond (by rw [Order.length_bytes]; exact hfour₁)
        rw [hcontent₁, hposition₁, Order.length_bytes, timeOffset,
          Header.toBytes_subseconds] at hcontent₂
        rw [if_pos hfour₁]
        exact hcontent₂
      · next hfour₁ =>
        have hzero := OpenFile.head_of_write_zero (hsize _) hset
        rw [hnext, htail] at hzero
        rw [htail, Order.length_bytes] at hhead₁
        rcases hhead₁ with hnil | hfull
        · rw [List.head?_eq_none_iff] at hnil
          rw [hnil] at hzero
          cases hzero
        · exact absurd
            ⟨(OpenFile.lseek_fst_iff (by decide)).mp hoffset, Or.inr ⟨hfull, hzero⟩⟩ hwrites
    · next hfour =>
      refine absurd ⟨(OpenFile.lseek_fst_iff (by decide)).mp hoffset, Or.inl ?_⟩ hwrites
      rw [← htail]
      exact OpenFile.head_of_write_zero (hsize _) hset
  · next hoffset =>
    rcases OpenFile.lseek_fst f timeOffset with herror | hresult
    · rw [herror] at hset
      exact absurd hset (by decide)
    · exact absurd hresult hoffset

/-- When no bytes are written for a word of the time, the function succeeds, but the subseconds in
the file are the old ones. -/
theorem setTimestamp_writesNothing (hcontent : f.content = h.toBytes .big ++ rest)
    (hwrites : WritesNothing f.answers) :
    (setTimestamp o time f).1 = 0 ∧ ∃ h' : Header,
      (setTimestamp o time f).2.content = h'.toBytes .big ++ rest ∧
        h'.timeSubSeconds = h.timeSubSeconds := by
  obtain ⟨hhead, hempty⟩ := hwrites
  have hoffset : (f.lseek timeOffset).1 = Int32.ofNat timeOffset :=
    (OpenFile.lseek_fst_iff (by decide)).mpr hhead
  obtain ⟨hkept, hposition⟩ := OpenFile.lseek_eq (by decide) hoffset
  obtain ⟨hseconds, hsubseconds⟩ := bytes_outTimestamp o time
  have htail := OpenFile.answers_lseek f timeOffset
  have hsize : ∀ x, ValidSize (Order.big.bytes x).length := fun x => by
    rw [Order.length_bytes]
    decide
  unfold setTimestamp
  dsimp only
  rw [hseconds, hsubseconds, if_pos hoffset]
  generalize (f.lseek timeOffset).2 = g at hkept hposition htail ⊢
  rw [← htail] at hempty
  have hnext := OpenFile.answers_write (f := g) (hsize time.seconds)
  rcases hempty with hzero | ⟨⟨k, hk, hfull⟩, hzero⟩
  · obtain ⟨hresult, hsame⟩ := OpenFile.write_nothing (hsize time.seconds) hzero
    rw [hresult, if_neg (by decide)]
    exact ⟨rfl, h, by rw [hsame, hkept, hcontent], rfl⟩
  · have hall : (g.write (Order.big.bytes time.seconds)).1 =
        Int32.ofNat (Order.big.bytes time.seconds).length := by
      rw [OpenFile.write_fst (hsize _), hfull, Order.length_bytes]
      dsimp only
      rw [Nat.min_eq_left hk]
    obtain ⟨hcontent₁, -⟩ := OpenFile.write_eq (hsize time.seconds) hall
    rw [hkept, hposition, Order.length_bytes, hcontent, timeOffset,
      Header.toBytes_seconds] at hcontent₁
    rw [← hnext] at hzero
    have hfour : (g.write (Order.big.bytes time.seconds)).1 = 4 := by
      rw [hall, Order.length_bytes]
      rfl
    obtain ⟨hresult, hsame⟩ := OpenFile.write_nothing (hsize time.subseconds) hzero
    rw [if_pos hfour, hresult, if_neg (by decide)]
    exact ⟨rfl, { h with timeSeconds := time.seconds }, by rw [hsame, hcontent₁], rfl⟩

end Functions

/-! ## The functions together -/

theorem Header.toBytes_withTime (h : Header) (time : SysTime) (rest : List UInt8) :
    (h.withTime time).toBytes .big ++ rest =
      (h.toBytes .big ++ rest).take timeOffset ++
        (Order.big.bytes time.seconds ++ Order.big.bytes time.subseconds) ++
          (h.toBytes .big ++ rest).drop (timeOffset + 8) := by
  simp [Header.toBytes, Header.withTime, timeOffset, List.take_append, List.take_of_length_le]

/-- **What the three functions should do**, on machines of any order, when the operating system
gives these answers while the time is set: the words are in the file with their most significant
bytes first, what is read is what the caller of the write has, and the time alone is changed. -/
structure HeaderCodec (answers : List (Option ℕ)) : Prop where
  bytes : ∀ o stamp hdr f, (writeHeader o stamp hdr f).1 = Int32.ofNat stdHeaderSize →
    (writeHeader o stamp hdr f).2.1 = hdr.stamped stamp ∧
      (writeHeader o stamp hdr f).2.2.content.take stdHeaderSize = (hdr.stamped stamp).toBytes .big
  read : ∀ o stamp hdr f, (writeHeader o stamp hdr f).1 = Int32.ofNat stdHeaderSize →
    ∀ o' buffer e, e.content = (writeHeader o stamp hdr f).2.2.content →
      (readHeader o' buffer e).1 = Int32.ofNat stdHeaderSize →
      (readHeader o' buffer e).2.1 = (writeHeader o stamp hdr f).2.1
  time : ∀ o stamp hdr f, (writeHeader o stamp hdr f).1 = Int32.ofNat stdHeaderSize →
    ∀ o₁ time g, g.content = (writeHeader o stamp hdr f).2.2.content → g.answers = answers →
      (setTimestamp o₁ time g).1 = 0 →
      (setTimestamp o₁ time g).2.content =
          g.content.take timeOffset ++
            (Order.big.bytes time.seconds ++ Order.big.bytes time.subseconds) ++
              g.content.drop (timeOffset + 8) ∧
        ∀ o' buffer e, e.content = (setTimestamp o₁ time g).2.content →
          (readHeader o' buffer e).1 = Int32.ofNat stdHeaderSize →
          (readHeader o' buffer e).2.1 = (writeHeader o stamp hdr f).2.1.withTime time

/-- **The functions do what they should exactly when no write of the time is an empty one.** -/
theorem headerCodec_iff (answers : List (Option ℕ)) :
    HeaderCodec answers ↔ ¬ WritesNothing answers := by
  constructor
  · intro hcodec hwrites
    -- the header of an empty description, written at the time zero
    have hwritten := writeHeader_written .big ⟨0, 0, 0, ⟨0, 0⟩⟩ (initHeader [] 0) [] 0
    have hsuccess := congrArg Prod.fst hwritten
    have hset : (setTimestamp .big ⟨1, 1⟩ ⟨_, 0, answers⟩).1 = 0 ∧ _ :=
      setTimestamp_writesNothing (congrArg (fun r => r.2.2.content) hwritten) hwrites
    obtain ⟨hzero, h', hcontent, hold⟩ := hset
    obtain ⟨-, hread⟩ := hcodec.time .big _ _ _ hsuccess .big ⟨1, 1⟩ ⟨_, 0, answers⟩ rfl rfl hzero
    have hback := readHeader_written .big (initHeader [] 0) h' (([] : List UInt8).drop 64)
    have heq := hread .big (initHeader [] 0) ⟨h'.toBytes .big ++ ([] : List UInt8).drop 64, 0, []⟩
      hcontent.symm (congrArg Prod.fst hback)
    rw [congrArg (fun r => r.2.1) hback] at heq
    have hsub : (0 : UInt32) = 1 := hold.symm.trans (congrArg Header.timeSubSeconds heq)
    exact absurd hsub (by decide)
  · intro hwrites
    refine ⟨fun o stamp hdr f hwrite => ?_, fun o stamp hdr f hwrite o' buffer e he hread => ?_,
      fun o stamp hdr f hwrite o₁ time g hg hanswers hset => ?_⟩
    · obtain ⟨hcaller, hcontent⟩ := writeHeader_eq hwrite
      refine ⟨hcaller, ?_⟩
      rw [hcontent, ← Header.length_toBytes .big (hdr.stamped stamp), List.take_left]
    · obtain ⟨hcaller, hcontent⟩ := writeHeader_eq hwrite
      rw [hcaller]
      exact readHeader_eq (he.trans hcontent) hread
    · obtain ⟨hcaller, hcontent⟩ := writeHeader_eq hwrite
      have hfile := setTimestamp_eq (hg.trans hcontent) hset (hanswers ▸ hwrites)
      rw [hcaller, hfile]
      refine ⟨?_, fun o' buffer e he hread => readHeader_eq he hread⟩
      rw [Header.toBytes_withTime, hg, hcontent]

/-- The answers of an operating system that seeks and then writes no bytes. -/
theorem setTimestamp_empty_write : ¬ ∀ answers, HeaderCodec answers := by
  intro h
  have hcodec := (h [some 0, some 0]).time .big ⟨0, 0, 0, ⟨0, 0⟩⟩ (initHeader [] 0) ⟨[], 0, []⟩
    (by decide +kernel) .big ⟨1, 1⟩
    ⟨((initHeader [] 0).stamped ⟨0, 0, 0, ⟨0, 0⟩⟩).toBytes .big, 0, [some 0, some 0]⟩
    (by decide +kernel) rfl (by decide +kernel)
  have hcontent := hcodec.1
  revert hcontent
  decide +kernel

end FileServices
