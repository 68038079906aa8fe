import SimpleMessenger.Foundations.BoundedQueue
import SimpleMessenger.Foundations.CMemory

/-!
# The ring buffer of `CircularBuffer.hpp`

All queues of the program are instances of one class template: the mailboxes of
the gRPC server, the three queues of a UDP endpoint and the task queue of the
thread pool.  The element type and the capacity stay parameters here.  The
cursors are the 64-bit words of the source, an array access outside the array is
a {lit}`Fault`, and members that a constructor does not initialise keep the
content of the memory in which the object is built.

Main results:

- Theorems {lit}`push_spec` and {lit}`pop_spec`: the two operations on a
  well-formed buffer, in terms of the elements held.
- Theorem {lit}`refines_boundedQueue`: from the default constructor on, every
  sequence of operations answers as the bounded queue does, stays well formed and
  stays inside the array.
- Theorems {lit}`Ring.push_eq` and {lit}`Ring.pop_eq`: the operations on buffers
  that carry their well-formedness, which never fault.
- Theorem {lit}`moveConstruct_carries_iff`: what the move constructor needs from
  the memory it builds in.
-/

universe u

namespace SimpleMessenger

open CMemory BoundedQueue

/-- `CircularBuffer<T, length>` without its two mutexes. -/
structure CircularBuffer (T : Type u) (length : UInt64) where
  circBuffer : Vector T length.toNat
  beginPos : UInt64
  endPos : UInt64
  size : UInt64

namespace CircularBuffer

variable {T : Type u} {length : UInt64}

/-! ## The class as the source has it -/

/-- The default constructor, in the memory `raw`: the array is left as it is. -/
def construct (raw : CircularBuffer T length) : CircularBuffer T length :=
  { raw with beginPos := 0, endPos := 0, size := 0 }

/-- The move constructor, in the memory `raw`.  It moves the array only; `this`
is never `&other` for an object under construction. -/
def moveConstruct (raw other : CircularBuffer T length) : CircularBuffer T length :=
  { raw with circBuffer := other.circBuffer }

def isEmpty (b : CircularBuffer T length) : Bool :=
  b.size == 0

def isFull (b : CircularBuffer T length) : Bool :=
  b.size == length

/-- `pos++; if (pos == length) pos = 0;` -/
def advance (length pos : UInt64) : UInt64 :=
  if pos + 1 == length then 0 else pos + 1

def push (b : CircularBuffer T length) (item : T) :
    Checked (Bool × CircularBuffer T length) :=
  if !b.isFull then
    if h : b.endPos.toNat < length.toNat then
      .ok (true,
        { b with
          circBuffer := b.circBuffer.set b.endPos.toNat item h
          endPos := advance length b.endPos
          size := b.size + 1 })
    else .error (.write b.endPos.toNat length.toNat)
  else .ok (false, b)

def pop (b : CircularBuffer T length) :
    Checked (Option T × CircularBuffer T length) :=
  if b.isEmpty then .ok (none, b)
  else if h : b.beginPos.toNat < length.toNat then
    .ok (some b.circBuffer[b.beginPos.toNat],
      { b with
        size := b.size - 1
        beginPos := advance length b.beginPos })
  else .error (.read b.beginPos.toNat length.toNat)

/-- One call on the buffer, in the vocabulary of the bounded queue. -/
def apply (b : CircularBuffer T length) :
    Op T → Checked (Result T × CircularBuffer T length)
  | .push x => (fun r => (.flag r.1, r.2)) <$> b.push x
  | .pop => (fun r => (.item r.1, r.2)) <$> b.pop
  | .isEmpty => .ok (.flag b.isEmpty, b)
  | .isFull => .ok (.flag b.isFull, b)

/-! ## Well-formed buffers and the elements they hold -/

/-- The representation invariant of the two cursors and the fill count. -/
structure WF (b : CircularBuffer T length) : Prop where
  begin_lt : b.beginPos.toNat < length.toNat
  end_lt : b.endPos.toNat < length.toNat
  size_le : b.size.toNat ≤ length.toNat
  end_eq : b.endPos.toNat = (b.beginPos.toNat + b.size.toNat) % length.toNat

/-- Array index of the element `i` places behind the oldest one. -/
def slot (b : CircularBuffer T length) (i : Nat) : Nat :=
  (b.beginPos.toNat + i) % length.toNat

/-- The elements held, oldest first. -/
def contents (b : CircularBuffer T length) : List T :=
  (List.range b.size.toNat).filterMap fun i => b.circBuffer[b.slot i]?

theorem WF.length_pos {b : CircularBuffer T length} (hwf : b.WF) : 0 < length.toNat :=
  Nat.zero_lt_of_lt hwf.begin_lt

theorem slot_lt (hpos : 0 < length.toNat) (b : CircularBuffer T length) (i : Nat) :
    b.slot i < length.toNat :=
  Nat.mod_lt _ hpos

/-- With a positive capacity every slot exists, so the elements are a plain
map over the fill count. -/
theorem contents_eq_map (hpos : 0 < length.toNat) (b : CircularBuffer T length) :
    b.contents = (List.range b.size.toNat).map
      fun i => b.circBuffer.get ⟨b.slot i, slot_lt hpos b i⟩ := by
  rw [contents, ← List.filterMap_eq_map]
  congr 1
  funext i
  exact Vector.getElem?_eq_getElem (slot_lt hpos b i)

theorem length_contents (hpos : 0 < length.toNat) (b : CircularBuffer T length) :
    b.contents.length = b.size.toNat := by
  simp [contents_eq_map hpos]

theorem getElem?_contents (hpos : 0 < length.toNat) (b : CircularBuffer T length) {i : Nat}
    (hi : i < b.size.toNat) : b.contents[i]? = b.circBuffer[b.slot i]? := by
  rw [contents_eq_map hpos, List.getElem?_map, List.getElem?_range hi,
    Vector.getElem?_eq_getElem (slot_lt hpos b i)]
  rfl

/-! ## Cursor arithmetic -/

/-- Below the capacity the 64-bit increment does not wrap. -/
theorem toNat_add_one {a b : UInt64} (hlt : a.toNat < b.toNat) :
    (a + 1).toNat = a.toNat + 1 := by
  have hbound := b.toNat_lt
  rw [UInt64.toNat_add, UInt64.toNat_one]
  omega

theorem toNat_sub_one {a : UInt64} (hne : a ≠ 0) : (a - 1).toNat = a.toNat - 1 := by
  have hpos : 0 < a.toNat := by
    rw [Nat.pos_iff_ne_zero]
    intro hzero
    exact hne (UInt64.toNat_inj.mp hzero)
  have hbound := a.toNat_lt
  rw [UInt64.toNat_sub, UInt64.toNat_one]
  omega

/-- Advancing a cursor is addition modulo the capacity. -/
theorem toNat_advance {pos : UInt64} (hlt : pos.toNat < length.toNat) :
    (advance length pos).toNat = (pos.toNat + 1) % length.toNat := by
  have hsucc := toNat_add_one hlt
  unfold advance
  split <;> rename_i heq
  · have hlen : pos.toNat + 1 = length.toNat := by
      rw [← hsucc, eq_of_beq heq]
    rw [hlen, Nat.mod_self]
    rfl
  · have hne : pos.toNat + 1 ≠ length.toNat := by
      intro hlen
      rw [← hsucc] at hlen
      exact heq (beq_iff_eq.mpr (UInt64.toNat_inj.mp hlen))
    rw [hsucc, Nat.mod_eq_of_lt (by omega)]

/-- Different places below the capacity lie in different slots. -/
theorem slot_ne {b : CircularBuffer T length} (hwf : b.WF) {i j : Nat}
    (hij : i < j) (hj : j < length.toNat) : b.slot i ≠ b.slot j := by
  have hbegin := hwf.begin_lt
  unfold slot
  rcases Nat.lt_or_ge (b.beginPos.toNat + j) length.toNat with hsmall | hwrap
  · rw [Nat.mod_eq_of_lt (by omega), Nat.mod_eq_of_lt hsmall]
    omega
  · rw [Nat.mod_eq_sub_mod hwrap, Nat.mod_eq_of_lt (a := _ - _) (by omega)]
    rcases Nat.lt_or_ge (b.beginPos.toNat + i) length.toNat with hi | hi
    · rw [Nat.mod_eq_of_lt hi]
      omega
    · rw [Nat.mod_eq_sub_mod hi, Nat.mod_eq_of_lt (by omega)]
      omega

/-! ## The operations on well-formed buffers -/

theorem construct_wf (hpos : 0 < length.toNat) (raw : CircularBuffer T length) :
    (construct raw).WF where
  begin_lt := hpos
  end_lt := hpos
  size_le := Nat.zero_le _
  end_eq := (Nat.zero_mod _).symm

@[simp]
theorem contents_construct (raw : CircularBuffer T length) : (construct raw).contents = [] :=
  rfl

theorem isEmpty_eq (hpos : 0 < length.toNat) (b : CircularBuffer T length) :
    b.isEmpty = (b.contents.length == 0) := by
  rw [length_contents hpos, isEmpty, Bool.eq_iff_iff, beq_iff_eq, beq_iff_eq,
    ← UInt64.toNat_inj]
  rfl

theorem isFull_eq (hpos : 0 < length.toNat) (b : CircularBuffer T length) :
    b.isFull = (b.contents.length == length.toNat) := by
  rw [length_contents hpos, isFull, Bool.eq_iff_iff, beq_iff_eq, beq_iff_eq,
    UInt64.toNat_inj]

/-- A push on a buffer with room appends; the array write is in bounds. -/
theorem push_of_room {b : CircularBuffer T length} (hwf : b.WF) (item : T)
    (hroom : b.size.toNat < length.toNat) :
    ∃ b', b.push item = .ok (true, b') ∧ b'.WF ∧ b'.contents = b.contents ++ [item] := by
  have hpos := hwf.length_pos
  have hfull : b.isFull = false := by
    rw [isFull_eq hpos, length_contents hpos]
    simpa using by omega
  have hend : b.endPos.toNat = b.slot b.size.toNat := hwf.end_eq
  have hsize := toNat_add_one hroom
  have hadvance := toNat_advance hwf.end_lt
  refine ⟨{ b with
      circBuffer := b.circBuffer.set b.endPos.toNat item hwf.end_lt
      endPos := advance length b.endPos
      size := b.size + 1 }, by simp [push, hfull, hwf.end_lt],
    ⟨hwf.begin_lt, ?_, ?_, ?_⟩, ?_⟩
  · rw [hadvance]
    exact Nat.mod_lt _ hpos
  · rw [hsize]
    omega
  · change (advance length b.endPos).toNat =
      (b.beginPos.toNat + (b.size + 1).toNat) % length.toNat
    rw [hadvance, hsize, hwf.end_eq, Nat.mod_add_mod, Nat.add_assoc]
  · -- the old elements lie in other slots than the one written
    rw [contents, contents, hsize, List.range_succ, List.filterMap_append]
    congr 1
    · apply List.filterMap_congr
      intro i hi
      have hlt : i < b.size.toNat := List.mem_range.mp hi
      have hne : b.endPos.toNat ≠ b.slot i := by
        rw [hend]
        exact (slot_ne hwf hlt hroom).symm
      exact Vector.getElem?_set_ne hwf.end_lt hne
    · have hslot : b.slot b.size.toNat = b.endPos.toNat := hend.symm
      simp only [slot] at hslot
      simp [slot, hslot]

/-- What a push answers and leaves behind, in terms of the elements held. -/
theorem push_spec {b : CircularBuffer T length} (hwf : b.WF) (item : T) :
    ∃ b', b.push item = .ok (decide (b.contents.length < length.toNat), b') ∧ b'.WF ∧
      b'.contents =
        if b.contents.length < length.toNat then b.contents ++ [item] else b.contents := by
  have hlen := length_contents hwf.length_pos b
  by_cases hroom : b.contents.length < length.toNat
  · rcases push_of_room hwf item (hlen ▸ hroom) with ⟨b', hpush, hwf', hcontents⟩
    exact ⟨b', by simpa [hroom] using hpush, hwf', by simpa [hroom] using hcontents⟩
  · have hsize := hwf.size_le
    have hfull : b.isFull = true := by
      rw [isFull_eq hwf.length_pos]
      simpa using by omega
    exact ⟨b, by simp [push, hfull, hroom], hwf, by simp [hroom]⟩

/-- What a pop answers and leaves behind, in terms of the elements held. -/
theorem pop_spec {b : CircularBuffer T length} (hwf : b.WF) :
    ∃ b', b.pop = .ok (b.contents.head?, b') ∧ b'.WF ∧ b'.contents = b.contents.tail := by
  have hpos := hwf.length_pos
  by_cases hzero : b.size = 0
  · have hempty : b.contents = [] := by
      simp [contents, hzero]
    exact ⟨b, by simp [pop, isEmpty, hzero, hempty], hwf, by simp [hempty]⟩
  · have hsize := toNat_sub_one hzero
    have hadvance := toNat_advance hwf.begin_lt
    have hsucc : b.size.toNat = (b.size.toNat - 1) + 1 := by
      have hne : b.size.toNat ≠ 0 := fun h => hzero (UInt64.toNat_inj.mp h)
      omega
    have hslot : b.slot 0 = b.beginPos.toNat := Nat.mod_eq_of_lt hwf.begin_lt
    -- the slots seen from the advanced cursor are the old ones, one place on
    have hshift : ∀ i, ((b.beginPos.toNat + 1) % length.toNat + i) % length.toNat =
        b.slot (i + 1) := by
      intro i
      rw [slot, Nat.mod_add_mod]
      congr 1
      omega
    have hbegin := hwf.begin_lt
    have hcontents : b.contents =
        b.circBuffer[b.beginPos.toNat] ::
          (List.range (b.size.toNat - 1)).filterMap
            fun i => b.circBuffer[b.slot (i + 1)]? := by
      rw [contents, hsucc, List.range_succ_eq_map, List.filterMap_cons, hslot,
        Vector.getElem?_eq_getElem hwf.begin_lt]
      simp [List.filterMap_map]
    refine ⟨{ b with size := b.size - 1, beginPos := advance length b.beginPos },
      by simp [pop, isEmpty, hzero, hwf.begin_lt, hcontents], ⟨?_, hwf.end_lt, ?_, ?_⟩, ?_⟩
    · rw [hadvance]
      exact Nat.mod_lt _ hpos
    · have hle := hwf.size_le
      rw [hsize]
      omega
    · rw [hadvance, hsize, Nat.mod_add_mod, hwf.end_eq]
      congr 1
      omega
    · rw [hcontents, contents, List.tail_cons]
      simp only [slot, hsize, hadvance, hshift]

/-! ## Refinement of the bounded queue -/

/-- Every single call on a well-formed buffer is one of the bounded queue. -/
theorem apply_spec {b : CircularBuffer T length} (hwf : b.WF) (o : Op T) :
    ∃ b', b.apply o = .ok ((BoundedQueue.apply length.toNat b.contents o).1, b') ∧ b'.WF ∧
      b'.contents = (BoundedQueue.apply length.toNat b.contents o).2 := by
  cases o with
  | push x =>
      rcases push_spec hwf x with ⟨b', hpush, hwf', hcontents⟩
      refine ⟨b', ?_, hwf', ?_⟩
      · rw [apply, hpush, BoundedQueue.apply]
        split <;> rename_i hroom <;> simp [hroom]
      · rw [hcontents, BoundedQueue.apply]
        split <;> rfl
  | pop =>
      rcases pop_spec hwf with ⟨b', hpop, hwf', hcontents⟩
      exact ⟨b', by simp [apply, hpop, BoundedQueue.apply], hwf', hcontents⟩
  | isEmpty => exact ⟨b, by simp [apply, isEmpty_eq hwf.length_pos, BoundedQueue.apply], hwf, rfl⟩
  | isFull => exact ⟨b, by simp [apply, isFull_eq hwf.length_pos, BoundedQueue.apply], hwf, rfl⟩

/-- Every sequence of calls on a well-formed buffer is one of the bounded
queue. -/
theorem runOps_spec {b : CircularBuffer T length} (hwf : b.WF) (os : List (Op T)) :
    ∃ b', runOps apply b os = .ok ((BoundedQueue.run length.toNat b.contents os).1, b') ∧
      b'.WF ∧ b'.contents = (BoundedQueue.run length.toNat b.contents os).2 := by
  refine runOps_simulates (R := fun (b : CircularBuffer T length) q => b.WF ∧ b.contents = q)
    ?_ os ⟨hwf, rfl⟩
  rintro b q o ⟨hwf, rfl⟩
  exact apply_spec hwf o

/-- The buffer refines the bounded queue: from the default constructor on, in
whatever memory it ran, every sequence of calls is answered as by the list,
without an access outside the array, and ends in a well-formed buffer. -/
theorem refines_boundedQueue (hpos : 0 < length) (raw : CircularBuffer T length)
    (os : List (Op T)) :
    ∃ b, runOps apply (construct raw) os =
        .ok ((BoundedQueue.run length.toNat [] os).1, b) ∧
      b.contents = (BoundedQueue.run length.toNat [] os).2 ∧
      b.beginPos < length ∧ b.endPos < length ∧ b.size ≤ length ∧
      b.endPos.toNat = (b.beginPos.toNat + b.size.toNat) % length.toNat := by
  have hpos' : 0 < length.toNat := UInt64.lt_iff_toNat_lt.mp hpos
  rcases runOps_spec (construct_wf hpos' raw) os with ⟨b, hrun, hwf, hcontents⟩
  exact ⟨b, hrun, hcontents, UInt64.lt_iff_toNat_lt.mpr hwf.begin_lt,
    UInt64.lt_iff_toNat_lt.mpr hwf.end_lt, UInt64.le_iff_toNat_le.mpr hwf.size_le, hwf.end_eq⟩

/-- A buffer for two numbers that overflows, wraps around and runs empty. -/
theorem refines_boundedQueue_two :
    ∃ b, runOps apply (construct ⟨Vector.replicate _ 0, 7, 7, 7⟩ : CircularBuffer Nat 2)
        [.push 1, .push 2, .isFull, .push 3, .pop, .push 4, .pop, .pop, .isEmpty, .pop] =
        .ok ([.flag true, .flag true, .flag true, .flag false, .item (some 1), .flag true,
          .item (some 2), .item (some 4), .flag true, .item none], b) ∧
      b.contents = [] := by
  rcases refines_boundedQueue (by decide) (⟨Vector.replicate _ 0, 7, 7, 7⟩ : CircularBuffer Nat 2)
    [.push 1, .push 2, .isFull, .push 3, .pop, .push 4, .pop, .pop, .isEmpty, .pop] with
    ⟨b, hrun, hcontents, _⟩
  exact ⟨b, hrun, hcontents⟩

/-! ## Buffers that only their operations touch -/

/-- A buffer that is well formed; its operations never fault. -/
structure Ring (T : Type u) (length : UInt64) where
  buffer : CircularBuffer T length
  wf : buffer.WF

namespace Ring

/-- The default constructor. -/
def construct (hpos : 0 < length.toNat) (raw : CircularBuffer T length) : Ring T length where
  buffer := CircularBuffer.construct raw
  wf := construct_wf hpos raw

def contents (q : Ring T length) : List T :=
  q.buffer.contents

def isEmpty (q : Ring T length) : Bool :=
  q.buffer.isEmpty

def isFull (q : Ring T length) : Bool :=
  q.buffer.isFull

theorem push_wf {q : Ring T length} {item : T} {ok : Bool} {b : CircularBuffer T length}
    (hpush : q.buffer.push item = .ok (ok, b)) : b.WF := by
  rcases push_spec q.wf item with ⟨b', hpush', hwf, _⟩
  rw [hpush'] at hpush
  cases hpush
  exact hwf

theorem pop_wf {q : Ring T length} {item : Option T} {b : CircularBuffer T length}
    (hpop : q.buffer.pop = .ok (item, b)) : b.WF := by
  rcases pop_spec q.wf with ⟨b', hpop', hwf, _⟩
  rw [hpop'] at hpop
  cases hpop
  exact hwf

theorem push_ne_error {q : Ring T length} {item : T} {fault : Fault} :
    q.buffer.push item ≠ .error fault := by
  rcases push_spec q.wf item with ⟨b, hpush, _⟩
  simp [hpush]

theorem pop_ne_error {q : Ring T length} {fault : Fault} : q.buffer.pop ≠ .error fault := by
  rcases pop_spec q.wf with ⟨b, hpop, _⟩
  simp [hpop]

def push (q : Ring T length) (item : T) : Bool × Ring T length :=
  match h : q.buffer.push item with
  | .ok (ok, b) => (ok, ⟨b, push_wf h⟩)
  | .error _ => (push_ne_error h).elim

def pop (q : Ring T length) : Option T × Ring T length :=
  match h : q.buffer.pop with
  | .ok (item, b) => (item, ⟨b, pop_wf h⟩)
  | .error _ => (pop_ne_error h).elim

@[simp]
theorem contents_construct (hpos : 0 < length.toNat) (raw : CircularBuffer T length) :
    (construct hpos raw).contents = [] :=
  rfl

theorem isEmpty_eq (q : Ring T length) : q.isEmpty = (q.contents.length == 0) :=
  CircularBuffer.isEmpty_eq q.wf.length_pos q.buffer

theorem isFull_eq (q : Ring T length) : q.isFull = (q.contents.length == length.toNat) :=
  CircularBuffer.isFull_eq q.wf.length_pos q.buffer

theorem isEmpty_iff {q : Ring T length} : q.isEmpty = true ↔ q.contents = [] := by
  rw [isEmpty_eq, beq_iff_eq, List.length_eq_zero_iff]

theorem length_contents_le (q : Ring T length) : q.contents.length ≤ length.toNat := by
  unfold contents
  rw [length_contents q.wf.length_pos]
  exact q.wf.size_le

/-- What a push answers and leaves behind. -/
theorem push_eq (q : Ring T length) (item : T) :
    (q.push item).1 = decide (q.contents.length < length.toNat) ∧
      (q.push item).2.contents =
        if q.contents.length < length.toNat then q.contents ++ [item] else q.contents := by
  rcases push_spec q.wf item with ⟨b, hpush, _, hcontents⟩
  unfold push
  split <;> rename_i hpush'
  · rw [hpush] at hpush'
    cases hpush'
    exact ⟨rfl, hcontents⟩
  · exact absurd hpush' push_ne_error

/-- What a pop answers and leaves behind. -/
theorem pop_eq (q : Ring T length) :
    q.pop.1 = q.contents.head? ∧ q.pop.2.contents = q.contents.tail := by
  rcases pop_spec q.wf with ⟨b, hpop, _, hcontents⟩
  unfold pop
  split <;> rename_i hpop'
  · rw [hpop] at hpop'
    cases hpop'
    exact ⟨rfl, hcontents⟩
  · exact absurd hpop' pop_ne_error

end Ring

/-! ## Moving a buffer -/

/-- `b` is a well-formed buffer on which consecutive pops return the elements
of `src` in order, and nothing after them. -/
def Carries (b src : CircularBuffer T length) : Prop :=
  b.WF ∧ ∀ n, ∃ b', runOps apply b (List.replicate n .pop) =
    .ok ((List.range n).map fun i => .item src.contents[i]?, b')

/-- The cursors found in the memory `raw` describe, in the array of `src`, the
elements that the cursors of `src` describe. -/
structure CursorsFit (raw src : CircularBuffer T length) : Prop where
  size_eq : raw.size = src.size
  begin_lt : raw.beginPos.toNat < length.toNat
  end_eq : raw.endPos.toNat = (raw.beginPos.toNat + raw.size.toNat) % length.toNat
  same : ∀ i < src.size.toNat, src.circBuffer[raw.slot i]? = src.circBuffer[src.slot i]?

/-- Pops see the elements held and nothing else of a well-formed buffer. -/
theorem carries_iff {b src : CircularBuffer T length} :
    b.Carries src ↔ b.WF ∧ b.contents = src.contents := by
  constructor
  · intro h
    rcases h with ⟨hwf, hpops⟩
    refine ⟨hwf, List.ext_getElem? fun i => ?_⟩
    rcases hpops (i + 1) with ⟨b', hpop⟩
    rcases runOps_spec hwf (List.replicate (i + 1) .pop) with ⟨b'', hrun, _, _⟩
    rw [run_pops, hpop] at hrun
    injection hrun with hpair
    have hresults := congrArg (fun rs => rs.1[i]?) hpair
    simpa using hresults.symm
  · intro h
    rcases h with ⟨hwf, hcontents⟩
    refine ⟨hwf, fun n => ?_⟩
    rcases runOps_spec hwf (List.replicate n .pop) with ⟨b', hrun, _, _⟩
    exact ⟨b', by rw [hrun, run_pops, hcontents]⟩

/-- The move constructor carries the queue over exactly when the memory it
builds in already holds fitting cursors. -/
theorem moveConstruct_carries_iff {raw src : CircularBuffer T length} (hsrc : src.WF) :
    (moveConstruct raw src).Carries src ↔ CursorsFit raw src := by
  have hpos := hsrc.length_pos
  rw [carries_iff]
  constructor
  · intro h
    rcases h with ⟨hwf, hcontents⟩
    have hsize : raw.size = src.size := by
      rw [← UInt64.toNat_inj, ← length_contents hpos src, ← hcontents, length_contents hpos]
      rfl
    refine ⟨hsize, hwf.begin_lt, hwf.end_eq, fun i hi => ?_⟩
    have hraw : i < (moveConstruct raw src).size.toNat := by
      change i < raw.size.toNat
      rw [hsize]
      exact hi
    calc src.circBuffer[raw.slot i]?
        = (moveConstruct raw src).contents[i]? := (getElem?_contents hpos _ hraw).symm
      _ = src.contents[i]? := by rw [hcontents]
      _ = src.circBuffer[src.slot i]? := getElem?_contents hpos src hi
  · intro h
    refine ⟨⟨h.begin_lt, ?_, ?_, h.end_eq⟩, ?_⟩
    · change raw.endPos.toNat < length.toNat
      rw [h.end_eq]
      exact Nat.mod_lt _ hpos
    · change raw.size.toNat ≤ length.toNat
      rw [h.size_eq]
      exact hsrc.size_le
    · change (List.range raw.size.toNat).filterMap (fun i => src.circBuffer[raw.slot i]?) = _
      rw [h.size_eq, contents]
      apply List.filterMap_congr
      intro i hi
      exact h.same i (List.mem_range.mp hi)

end CircularBuffer

end SimpleMessenger
