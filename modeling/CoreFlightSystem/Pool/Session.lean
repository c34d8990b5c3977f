import CoreFlightSystem.Library.LinkedList
import CoreFlightSystem.Library.Run
import CoreFlightSystem.Pool.Layout

/-!
# Sessions of a pool and their invariant

A session is a pool together with what its clients have seen of it: the blocks that were ever
handed out, and for each offset the requested size while the block there is allocated. Both are
computed from the answers of the calls only. Clients get and put blocks, with a storage that can
fail at every access, and write bytes.
-/

namespace GenPool

open Storage LinkedList Transition

structure Session where
  pool : Pool
  /-- the blocks handed out so far, in the order of their creation -/
  created : List Block
  /-- the requested size of the allocated block at an offset -/
  allocated : Nat → Option Nat

inductive Op
  | get (reqSize : Nat) (recycle create : Access)
  | put (blockOffset : Nat) (io : Access)
  | write (a : Nat) (v : UInt8)

namespace Session

variable (w : Nat)

/-- A block was handed out: it is new unless it was handed out before. -/
def handedOut (s : Session) (reqSize off : Nat) (p : Pool) : Session where
  pool := p
  created :=
    if s.created.any (·.offset = off) then s.created
    else
      s.created ++ [⟨off, firstFit s.pool.record reqSize 0 s.pool.record.numBuckets⟩]
  allocated := Function.update s.allocated off (some reqSize)

def takenBack (s : Session) (off : Nat) (p : Pool) : Session where
  pool := p
  created := s.created
  allocated := Function.update s.allocated off none

/-- What the clients see of a call of `CFE_ES_GenPoolGetBlock`. -/
def afterGet (s : Session) (reqSize : Nat) (c : Call) : Session :=
  match c.status, c.out with
  | .success, some off => s.handedOut reqSize off c.pool
  | _, _ => { s with pool := c.pool }

/-- The session after a call of `CFE_ES_GenPoolGetBlock`. -/
def getBlock (s : Session) (recycle create : Access) (reqSize : Nat) : Session :=
  s.afterGet reqSize (genPoolGetBlock w s.pool recycle create reqSize)

/-- What the clients see of a call of `CFE_ES_GenPoolPutBlock`. -/
def afterPut (s : Session) (off : Nat) (c : Call) : Session :=
  match c.status with
  | .success => s.takenBack off c.pool
  | _ => { s with pool := c.pool }

/-- The session after a call of `CFE_ES_GenPoolPutBlock`. -/
def putBlock (s : Session) (io : Access) (off : Nat) : Session :=
  s.afterPut off (genPoolPutBlock w s.pool io off)

def write (s : Session) (a : Nat) (v : UInt8) : Session :=
  { s with pool.storage := Function.update s.pool.storage a v }

def step (s : Session) : Op → Option Session
  | .get reqSize recycle create => some (s.getBlock w recycle create reqSize)
  | .put off io => some (s.putBlock w io off)
  | .write a v => some (s.write a v)

/-- An address is not inside the descriptor of a created block. -/
def OutsideDescriptors (s : Session) (a : Nat) : Prop :=
  ∀ b ∈ s.created, a + descriptorSize w < b.offset ∨ b.offset ≤ a

/-- How clients use the pool: they write no descriptor, and they put back only offsets of blocks
or offsets that the pool's own check of the descriptor rejects. -/
def Admissible (s : Session) : Op → Prop
  | .get _ _ _ => True
  | .put off _ =>
    (∃ b ∈ s.created, b.offset = off) ∨ (genPoolGetBlockSize w s.pool {} off).status ≠ .success
  | .write a _ => s.OutsideDescriptors w a

end Session

/-! ## The invariant -/

def nextOf (w : Nat) (m : Memory) (off : Nat) : Nat :=
  (readDescriptor w m (off - descriptorSize w)).nextOffset

/-- The descriptor of a block says whether it is allocated, for how many bytes, and its bucket. -/
def Described (g : Geometry) (m : Memory) (allocated : Nat → Option Nat) (b : Block) : Prop :=
  let bd := readDescriptor g.w m (b.offset - descriptorSize g.w)
  bd.checkBits = checkPattern ∧ bd.actualSize ≤ g.blockSize b.bucket ∧
    match allocated b.offset with
    | some reqSize =>
      bd.allocated = add16 memoryAllocated (g.bucketId b.bucket) ∧ bd.actualSize = reqSize
    | none => bd.allocated = add16 memoryDeallocated (g.bucketId b.bucket)

/-- The free stack of a bucket holds `l`: its blocks that are not allocated, each once. -/
structure FreeStack (g : Geometry) (s : Session) (i : Nat) (l : List Nat) : Prop where
  chain : Chain 0 (nextOf g.w s.pool.storage) (s.pool.record.buckets i).firstOffset l
  mem_iff : ∀ off, off ∈ l ↔ ⟨off, i⟩ ∈ s.created ∧ s.allocated off = none
  length : UInt32.ofNat l.length =
    (s.pool.record.buckets i).releaseCount - (s.pool.record.buckets i).recycleCount

theorem FreeStack.congr {g : Geometry} {s s' : Session} {i : Nat} {l : List Nat}
    (h : FreeStack g s i l) (hbucket : s'.pool.record.buckets i = s.pool.record.buckets i)
    (hnext : ∀ off ∈ l, nextOf g.w s'.pool.storage off = nextOf g.w s.pool.storage off)
    (hmem : ∀ off, (⟨off, i⟩ ∈ s'.created ∧ s'.allocated off = none) ↔
      ⟨off, i⟩ ∈ s.created ∧ s.allocated off = none) : FreeStack g s' i l where
  chain := by
    rw [hbucket]
    exact h.chain.congr hnext
  mem_iff off := by rw [hmem, h.mem_iff]
  length := by rw [hbucket, h.length]

theorem FreeStack.push {g : Geometry} {s s' : Session} {i off : Nat} {l : List Nat}
    (h : FreeStack g s i l) (hoff : off ≠ 0)
    (hbucket : s'.pool.record.buckets i = { s'.pool.record.buckets i with
      firstOffset := off
      releaseCount := (s.pool.record.buckets i).releaseCount + 1
      recycleCount := (s.pool.record.buckets i).recycleCount })
    (htop : nextOf g.w s'.pool.storage off = (s.pool.record.buckets i).firstOffset)
    (hnext : ∀ x ∈ l, nextOf g.w s'.pool.storage x = nextOf g.w s.pool.storage x)
    (hmem : ∀ x, (⟨x, i⟩ ∈ s'.created ∧ s'.allocated x = none) ↔
      x = off ∨ ⟨x, i⟩ ∈ s.created ∧ s.allocated x = none) : FreeStack g s' i (off :: l) where
  chain := by
    rw [hbucket]
    exact ⟨rfl, hoff, htop ▸ h.chain.congr hnext⟩
  mem_iff x := by rw [hmem, List.mem_cons, h.mem_iff]
  length := by
    have hlen := h.length
    rw [hbucket]
    simp only [List.length_cons, UInt32.ofNat_add, UInt32.reduceOfNat]
    clear * - hlen
    grind

/-- **The pool invariant.** -/
structure Invariant (g : Geometry) (startOffset : Nat) (s : Session) : Prop where
  fits : g.Fits s.pool.record
  start_le : startOffset ≤ g.poolMaxOffset
  laid : g.Laid startOffset s.created s.pool.record.tailPosition
  described : ∀ b ∈ s.created, Described g s.pool.storage s.allocated b
  owned : ∀ off, s.allocated off ≠ none → ∃ b ∈ s.created, b.offset = off
  free : ∀ i < g.numBuckets, ∃ l, FreeStack g s i l
  bucketCount : ∀ i < g.numBuckets, (s.pool.record.buckets i).allocationCount =
    UInt32.ofNat (s.created.countP (·.bucket = i))
  count : s.pool.record.allocationCount = UInt32.ofNat s.created.length

namespace Invariant

variable {g : Geometry} {start : Nat} {s : Session} {b b' : Block} {i : Nat}

theorem offset_bounds (inv : Invariant g start s) (hb : b ∈ s.created) :
    b.bucket < g.numBuckets ∧ descriptorSize g.w ≤ b.offset ∧
      b.offset + g.blockSize b.bucket ≤ s.pool.record.tailPosition ∧
      b.offset < sizeLimit g.w := by
  obtain ⟨h₁, h₂, h₃⟩ := inv.laid.bounds inv.start_le hb
  have := inv.laid.tail_le inv.start_le
  have := g.room 0
  exact ⟨h₁, by omega, h₃, by omega⟩

theorem eq_of_offset (inv : Invariant g start s) (hb : b ∈ s.created) (hb' : b' ∈ s.created)
    (h : b.offset = b'.offset) : b = b' :=
  inv.laid.eq_of_offset inv.start_le hb hb' h

theorem readDescriptor_other (inv : Invariant g start s) (hb : b ∈ s.created)
    (hb' : b' ∈ s.created) (hne : b'.offset ≠ b.offset) (bd : GenPoolBD) :
    readDescriptor g.w
        (writeDescriptor g.w s.pool.storage (b.offset - descriptorSize g.w) bd)
        (b'.offset - descriptorSize g.w) =
      readDescriptor g.w s.pool.storage (b'.offset - descriptorSize g.w) := by
  have h₁ := (inv.offset_bounds hb).2.1
  have h₂ := (inv.offset_bounds hb').2.1
  refine readDescriptor_of_separate g.word_le ?_
  rcases inv.laid.separate inv.start_le hb hb' with rfl | h | h
  · exact absurd rfl hne
  · omega
  · omega

end Invariant

end GenPool
