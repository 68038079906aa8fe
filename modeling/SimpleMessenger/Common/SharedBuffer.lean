import SimpleMessenger.Common.CircularBuffer
import SimpleMessenger.Foundations.AtomicObject
import SimpleMessenger.Foundations.Mutex

/-!
# The ring buffer under concurrent calls

Any number of calls of {lit}`push`, {lit}`pop`, {lit}`is_empty` and {lit}`is_full` are
under way on one {lit}`CircularBuffer`, and the scheduler picks the call that executes
its next statement.  {lit}`push` and {lit}`pop` hold {lit}`rw_mtx` for their whole body
and call {lit}`is_full` and {lit}`is_empty` inside it, which hold {lit}`ronly_mtx`; a
call of these two from outside takes {lit}`ronly_mtx` only, so that it reads the fill
count between any two statements of a running {lit}`push` or {lit}`pop`.  The
increment and the decrement of the fill count read and write it in two steps.
Accesses to it are taken as indivisible and ordered, which the source leaves to the
machine.

Main results:

- Theorem {lit}`linearizable`: under every schedule the calls are answered as by the
  bounded queue, one after the other in an order that respects real time, and no
  statement leaves the array.
- Theorem {lit}`calls_return`: no schedule blocks the calls, and every schedule makes
  all of them return.
-/

universe u

namespace SimpleMessenger

open CMemory BoundedQueue

namespace SharedBuffer

open AtomicObject (CallEvent Commit Linearization Phase)

variable {T : Type u} {length : UInt64}

/-! ## The statements of the member functions -/

/-- The statement that a call executes next, with the locals it still needs. -/
inductive Pc (T : Type u) where
  | pushLock (item : T)
  | pushFullLock (item : T)
  | pushFullRead (item : T)
  | pushFullUnlock (item : T) (full : Bool)
  | pushWrite (item : T)
  | pushAdvance (item : T)
  | pushWrap (item : T)
  | pushLoad (item : T)
  | pushStore (item : T) (loaded : UInt64)
  | pushUnlock (ok : Bool)
  | popLock
  | popEmptyLock
  | popEmptyRead
  | popEmptyUnlock (empty : Bool)
  | popRead
  | popLoad (item : T)
  | popStore (item : T) (loaded : UInt64)
  | popAdvance (item : T)
  | popWrap (item : T)
  | popUnlock (item : Option T)
  | emptyLock
  | emptyRead
  | emptyUnlock (empty : Bool)
  | fullLock
  | fullRead
  | fullUnlock (full : Bool)
  | returned

/-- The buffer and its two mutexes, each with the call that holds it. -/
structure Memory (T : Type u) (length : UInt64) where
  buffer : CircularBuffer T length
  rwMtx : Option Nat
  ronlyMtx : Option Nat

/-- What a statement shows: a call or a return, nothing, or an access outside the
array. -/
inductive Event (T : Type u) where
  | seen (e : CallEvent (Op T) (Result T))
  | silent
  | fault (f : Fault)

/-- The first statement of a call. -/
def enter : Op T → Pc T
  | .push item => .pushLock item
  | .pop => .popLock
  | .isEmpty => .emptyLock
  | .isFull => .fullLock

/-- `std::unique_lock<std::mutex> lock(rw_mtx)` in the call `i`. -/
def lockRw (m : Memory T length) (i : Nat) (next : Pc T) :
    Option (Memory T length × Pc T × Event T) :=
  if m.rwMtx.isNone then some ({ m with rwMtx := some i }, next, .silent) else none

/-- `std::unique_lock<std::mutex> lock(ronly_mtx)` in the call `i`. -/
def lockRonly (m : Memory T length) (i : Nat) (next : Pc T) :
    Option (Memory T length × Pc T × Event T) :=
  if m.ronlyMtx.isNone then some ({ m with ronlyMtx := some i }, next, .silent) else none

/-- A statement that always goes on, with the buffer `b`. -/
def goOn (m : Memory T length) (b : CircularBuffer T length) (next : Pc T) :
    Option (Memory T length × Pc T × Event T) :=
  some ({ m with buffer := b }, next, .silent)

/-- The next statement of the call `i`; `none` if it waits for a mutex or has
returned.  Leaving a function releases its mutex. -/
def advanceCall (m : Memory T length) (i : Nat) :
    Pc T → Option (Memory T length × Pc T × Event T)
  | .pushLock item => lockRw m i (.pushFullLock item)
  | .pushFullLock item => lockRonly m i (.pushFullRead item)
  | .pushFullRead item => goOn m m.buffer (.pushFullUnlock item (m.buffer.size == length))
  | .pushFullUnlock item full =>
      some ({ m with ronlyMtx := none }, if full then .pushUnlock false else .pushWrite item,
        .silent)
  | .pushWrite item =>
      if h : m.buffer.endPos.toNat < length.toNat then
        goOn m
          { m.buffer with circBuffer := m.buffer.circBuffer.set m.buffer.endPos.toNat item h }
          (.pushAdvance item)
      else some (m, .pushWrite item, .fault (.write m.buffer.endPos.toNat length.toNat))
  | .pushAdvance item =>
      goOn m { m.buffer with endPos := m.buffer.endPos + 1 } (.pushWrap item)
  | .pushWrap item =>
      goOn m
        (if m.buffer.endPos == length then { m.buffer with endPos := 0 } else m.buffer)
        (.pushLoad item)
  | .pushLoad item => goOn m m.buffer (.pushStore item m.buffer.size)
  | .pushStore _ loaded => goOn m { m.buffer with size := loaded + 1 } (.pushUnlock true)
  | .pushUnlock ok =>
      some ({ m with rwMtx := none }, .returned, .seen (.ret i (.flag ok)))
  | .popLock => lockRw m i .popEmptyLock
  | .popEmptyLock => lockRonly m i .popEmptyRead
  | .popEmptyRead => goOn m m.buffer (.popEmptyUnlock (m.buffer.size == 0))
  | .popEmptyUnlock empty =>
      some ({ m with ronlyMtx := none }, if empty then .popUnlock none else .popRead, .silent)
  | .popRead =>
      if h : m.buffer.beginPos.toNat < length.toNat then
        goOn m m.buffer (.popLoad m.buffer.circBuffer[m.buffer.beginPos.toNat])
      else some (m, .popRead, .fault (.read m.buffer.beginPos.toNat length.toNat))
  | .popLoad item => goOn m m.buffer (.popStore item m.buffer.size)
  | .popStore item loaded => goOn m { m.buffer with size := loaded - 1 } (.popAdvance item)
  | .popAdvance item =>
      goOn m { m.buffer with beginPos := m.buffer.beginPos + 1 } (.popWrap item)
  | .popWrap item =>
      goOn m
        (if m.buffer.beginPos == length then { m.buffer with beginPos := 0 } else m.buffer)
        (.popUnlock (some item))
  | .popUnlock item =>
      some ({ m with rwMtx := none }, .returned, .seen (.ret i (.item item)))
  | .emptyLock => lockRonly m i .emptyRead
  | .emptyRead => goOn m m.buffer (.emptyUnlock (m.buffer.size == 0))
  | .emptyUnlock empty =>
      some ({ m with ronlyMtx := none }, .returned, .seen (.ret i (.flag empty)))
  | .fullLock => lockRonly m i .fullRead
  | .fullRead => goOn m m.buffer (.fullUnlock (m.buffer.size == length))
  | .fullUnlock full =>
      some ({ m with ronlyMtx := none }, .returned, .seen (.ret i (.flag full)))
  | .returned => none

/-- The memory, and the calls made so far by number. -/
structure State (T : Type u) (length : UInt64) where
  memory : Memory T length
  calls : List (Pc T)

inductive Action (T : Type u) where
  | call (o : Op T)
  | advance (i : Nat)

def step (s : State T length) : Action T → Option (State T length × Event T)
  | .call o => some ({ s with calls := s.calls ++ [enter o] }, .seen (.call s.calls.length o))
  | .advance i =>
      s.calls[i]?.bind fun pc =>
        (advanceCall s.memory i pc).map fun r => (⟨r.1, s.calls.set i r.2.1⟩, r.2.2)

/-- One buffer from its constructor on, in the memory `raw`. -/
def system (raw : CircularBuffer T length) : StepSystem (State T length) (Action T) (Event T) where
  init := ⟨⟨CircularBuffer.construct raw, none, none⟩, []⟩
  step := step

/-- What the callers see of a statement. -/
def Event.shown : Event T → Option (CallEvent (Op T) (Result T))
  | .seen e => some e
  | .silent => none
  | .fault _ => none

/-! ## Where a call stands -/

/-- The statements between taking `rw_mtx` and releasing it. -/
def Pc.holdsRw : Pc T → Bool
  | .pushFullLock _ | .pushFullRead _ | .pushFullUnlock _ _ | .pushWrite _ | .pushAdvance _
  | .pushWrap _ | .pushLoad _ | .pushStore _ _ | .pushUnlock _ | .popEmptyLock
  | .popEmptyRead | .popEmptyUnlock _ | .popRead | .popLoad _ | .popStore _ _
  | .popAdvance _ | .popWrap _ | .popUnlock _ => true
  | _ => false

/-- The statements between taking `ronly_mtx` and releasing it. -/
def Pc.holdsRonly : Pc T → Bool
  | .pushFullRead _ | .pushFullUnlock _ _ | .popEmptyRead | .popEmptyUnlock _ | .emptyRead
  | .emptyUnlock _ | .fullRead | .fullUnlock _ => true
  | _ => false

/-- A call takes effect at the statement that writes the fill count, and if it writes
none at the one that reads it. -/
def Pc.phase : Pc T → Phase (Op T) (Result T)
  | .pushLock item | .pushFullLock item | .pushFullRead item | .pushWrite item
  | .pushAdvance item | .pushWrap item | .pushLoad item | .pushStore item _ =>
      .called (.push item)
  | .pushFullUnlock item full => if full then .committed (.flag false) else .called (.push item)
  | .pushUnlock ok => .committed (.flag ok)
  | .popLock | .popEmptyLock | .popEmptyRead | .popRead | .popLoad _ | .popStore _ _ =>
      .called .pop
  | .popEmptyUnlock empty => if empty then .committed (.item none) else .called .pop
  | .popAdvance item | .popWrap item => .committed (.item (some item))
  | .popUnlock item => .committed (.item item)
  | .emptyLock | .emptyRead => .called .isEmpty
  | .emptyUnlock empty => .committed (.flag empty)
  | .fullLock | .fullRead => .called .isFull
  | .fullUnlock full => .committed (.flag full)
  | .returned => .returned

/-- The buffer is well formed and holds `q`. -/
def Holds (b : CircularBuffer T length) (q : List T) : Prop :=
  b.WF ∧ b.contents = q

/-- What the holder of `rw_mtx` knows at each statement.  Between the first write and
the last, the buffer differs from the result of the sequential operation in the fields
still to be written. -/
def Mid : Pc T → CircularBuffer T length → List T → Prop
  | .pushFullUnlock _ full, b, q => Holds b q ∧ full = b.isFull
  | .pushWrite _, b, q => Holds b q ∧ b.isFull = false
  | .pushAdvance item, b, q =>
      ∃ b₀ b₁, Holds b₀ q ∧ b₀.push item = .ok (true, b₁) ∧
        b = { b₁ with endPos := b₀.endPos, size := b₀.size }
  | .pushWrap item, b, q =>
      ∃ b₀ b₁, Holds b₀ q ∧ b₀.push item = .ok (true, b₁) ∧
        b = { b₁ with endPos := b₀.endPos + 1, size := b₀.size }
  | .pushLoad item, b, q =>
      ∃ b₀ b₁, Holds b₀ q ∧ b₀.push item = .ok (true, b₁) ∧ b = { b₁ with size := b₀.size }
  | .pushStore item loaded, b, q =>
      ∃ b₀ b₁, Holds b₀ q ∧ b₀.push item = .ok (true, b₁) ∧ b = { b₁ with size := b₀.size } ∧
        loaded = b₀.size
  | .popEmptyUnlock empty, b, q => Holds b q ∧ empty = b.isEmpty
  | .popRead, b, q => Holds b q ∧ b.isEmpty = false
  | .popLoad item, b, q => Holds b q ∧ ∃ b₁, b.pop = .ok (some item, b₁)
  | .popStore item loaded, b, q =>
      Holds b q ∧ (∃ b₁, b.pop = .ok (some item, b₁)) ∧ loaded = b.size
  | .popAdvance item, b, q =>
      ∃ b₀ b₁, Holds b₀ (item :: q) ∧ b₀.pop = .ok (some item, b₁) ∧
        b = { b₁ with beginPos := b₀.beginPos }
  | .popWrap item, b, q =>
      ∃ b₀ b₁, Holds b₀ (item :: q) ∧ b₀.pop = .ok (some item, b₁) ∧
        b = { b₁ with beginPos := b₀.beginPos + 1 }
  | _, b, q => Holds b q

/-! ## The sequential operations, field by field -/

/-- What a successful push has written. -/
theorem push_fields {b b₁ : CircularBuffer T length} {item : T}
    (hpush : b.push item = .ok (true, b₁)) :
    b₁.beginPos = b.beginPos ∧ b₁.endPos = CircularBuffer.advance length b.endPos ∧
      b₁.size = b.size + 1 := by
  unfold CircularBuffer.push at hpush
  split at hpush
  · split at hpush
    · cases hpush
      exact ⟨rfl, rfl, rfl⟩
    · cases hpush
  · cases hpush

/-- What a successful pop has written. -/
theorem pop_fields {b b₁ : CircularBuffer T length} {item : T}
    (hpop : b.pop = .ok (some item, b₁)) :
    b₁ = { b with size := b.size - 1, beginPos := CircularBuffer.advance length b.beginPos } := by
  unfold CircularBuffer.pop at hpop
  split at hpop
  · cases hpop
  · split at hpop
    · cases hpop
      rfl
    · cases hpop

/-- After a successful push the buffer holds the item behind the others. -/
theorem Holds.push {b b₁ : CircularBuffer T length} {q : List T} {item : T}
    (hholds : Holds b q) (hpush : b.push item = .ok (true, b₁)) :
    q.length < length.toNat ∧ Holds b₁ (q ++ [item]) := by
  rcases hholds with ⟨hwf, rfl⟩
  rcases CircularBuffer.push_spec hwf item with ⟨b', hspec, hwf', hcontents⟩
  rw [hpush] at hspec
  simp only [Except.ok.injEq, Prod.mk.injEq] at hspec
  rcases hspec with ⟨hroom, rfl⟩
  have hlt : b.contents.length < length.toNat := of_decide_eq_true hroom.symm
  exact ⟨hlt, hwf', by rw [hcontents, if_pos hlt]⟩

/-- A successful pop takes the oldest element. -/
theorem Holds.pop {b b₁ : CircularBuffer T length} {q : List T} {item : T}
    (hholds : Holds b q) (hpop : b.pop = .ok (some item, b₁)) :
    q = item :: q.tail ∧ Holds b₁ q.tail := by
  rcases hholds with ⟨hwf, rfl⟩
  rcases CircularBuffer.pop_spec hwf with ⟨b', hspec, hwf', hcontents⟩
  rw [hpop] at hspec
  simp only [Except.ok.injEq, Prod.mk.injEq] at hspec
  rcases hspec with ⟨hhead, rfl⟩
  refine ⟨?_, hwf', hcontents⟩
  cases hq : b.contents with
  | nil => simp [hq] at hhead
  | cons x xs =>
      rw [hq] at hhead
      cases hhead
      rfl

theorem Holds.size {b : CircularBuffer T length} {q : List T} (hholds : Holds b q) :
    b.size.toNat = q.length := by
  rw [← hholds.2, CircularBuffer.length_contents hholds.1.length_pos]

/-- The fill count is that of the queue at every statement. -/
theorem Mid.size {pc : Pc T} {b : CircularBuffer T length} {q : List T} (hmid : Mid pc b q) :
    b.size.toNat = q.length := by
  cases pc with
  | pushFullUnlock item full => exact hmid.1.size
  | pushWrite item => exact hmid.1.size
  | popEmptyUnlock empty => exact hmid.1.size
  | popRead => exact hmid.1.size
  | popLoad item => exact hmid.1.size
  | popStore item loaded => exact hmid.1.size
  | pushAdvance item | pushWrap item | pushLoad item =>
      rcases hmid with ⟨b₀, b₁, hholds, _, rfl⟩
      exact hholds.size
  | pushStore item loaded =>
      rcases hmid with ⟨b₀, b₁, hholds, _, rfl, _⟩
      exact hholds.size
  | popAdvance item | popWrap item =>
      rcases hmid with ⟨b₀, b₁, hholds, hpop, rfl⟩
      exact (hholds.pop hpop).2.size
  | _ => exact Holds.size hmid

/-! ## One statement -/

/-- What a statement of the call `i` is for a queue that holds `q` and is called
atomically: nothing, the moment at which the call takes effect, or its return. -/
inductive Takes (length : UInt64) (i : Nat) (q : List T) :
    Pc T → Pc T → Event T → List T → Prop where
  | nothing {pc pc' : Pc T} : pc'.phase = pc.phase → Takes length i q pc pc' .silent q
  | effect {pc pc' : Pc T} (o : Op T) : pc.phase = .called o →
      pc'.phase = .committed (BoundedQueue.apply length.toNat q o).1 →
      Takes length i q pc pc' .silent (BoundedQueue.apply length.toNat q o).2
  | answer {pc : Pc T} (r : Result T) : pc.phase = .committed r →
      Takes length i q pc .returned (.seen (.ret i r)) q

section Statements

variable {m m' : Memory T length} {i : Nat} {pc pc' : Pc T} {e : Event T}
  {next : Pc T} {q : List T}

theorem lockRw_cases (hstep : lockRw m i next = some (m', pc', e)) :
    m.rwMtx = none ∧ m' = { m with rwMtx := some i } ∧ pc' = next ∧ e = .silent := by
  unfold lockRw at hstep
  split at hstep <;> rename_i hfree
  · cases hstep
    exact ⟨Option.isNone_iff_eq_none.mp hfree, rfl, rfl, rfl⟩
  · contradiction

theorem lockRonly_cases (hstep : lockRonly m i next = some (m', pc', e)) :
    m.ronlyMtx = none ∧ m' = { m with ronlyMtx := some i } ∧ pc' = next ∧ e = .silent := by
  unfold lockRonly at hstep
  split at hstep <;> rename_i hfree
  · cases hstep
    exact ⟨Option.isNone_iff_eq_none.mp hfree, rfl, rfl, rfl⟩
  · contradiction

theorem isEmpty_of_size {b : CircularBuffer T length} (hsize : b.size.toNat = q.length) :
    (b.size == 0) = (q.length == 0) := by
  rw [Bool.eq_iff_iff, beq_iff_eq, beq_iff_eq, ← hsize, ← UInt64.toNat_inj]
  rfl

theorem isFull_of_size {b : CircularBuffer T length} (hsize : b.size.toNat = q.length) :
    (b.size == length) = (q.length == length.toNat) := by
  rw [Bool.eq_iff_iff, beq_iff_eq, beq_iff_eq, ← hsize, UInt64.toNat_inj]

/-- A statement outside `rw_mtx` leaves the buffer alone; it may take the mutex. -/
theorem advance_outside (hout : pc.holdsRw = false) (hsize : m.buffer.size.toNat = q.length)
    (hstep : advanceCall m i pc = some (m', pc', e)) :
    m'.buffer = m.buffer ∧ Takes length i q pc pc' e q ∧
      (pc'.holdsRw = true → Holds m.buffer q → Mid pc' m.buffer q) := by
  cases pc with
  | pushLock item =>
      rcases lockRw_cases hstep with ⟨_, rfl, rfl, rfl⟩
      exact ⟨rfl, .nothing rfl, fun _ hholds => hholds⟩
  | popLock =>
      rcases lockRw_cases hstep with ⟨_, rfl, rfl, rfl⟩
      exact ⟨rfl, .nothing rfl, fun _ hholds => hholds⟩
  | emptyLock =>
      rcases lockRonly_cases hstep with ⟨_, rfl, rfl, rfl⟩
      exact ⟨rfl, .nothing rfl, nofun⟩
  | fullLock =>
      rcases lockRonly_cases hstep with ⟨_, rfl, rfl, rfl⟩
      exact ⟨rfl, .nothing rfl, nofun⟩
  | emptyRead =>
      cases hstep
      refine ⟨rfl, .effect .isEmpty rfl ?_, nofun⟩
      rw [isEmpty_of_size hsize]
      rfl
  | fullRead =>
      cases hstep
      refine ⟨rfl, .effect .isFull rfl ?_, nofun⟩
      rw [isFull_of_size hsize]
      rfl
  | emptyUnlock empty =>
      cases hstep
      exact ⟨rfl, .answer _ rfl, nofun⟩
  | fullUnlock full =>
      cases hstep
      exact ⟨rfl, .answer _ rfl, nofun⟩
  | returned => cases hstep
  | _ => simp [Pc.holdsRw] at hout

/-- A statement inside `rw_mtx` goes on with the operation; it is never an access outside
the array, and the last one leaves the whole result. -/
theorem advance_inside (hin : pc.holdsRw = true) (hmid : Mid pc m.buffer q)
    (hstep : advanceCall m i pc = some (m', pc', e)) :
    ∃ q', Takes length i q pc pc' e q' ∧ Mid pc' m'.buffer q' := by
  have hsize := hmid.size
  cases pc with
  | pushFullLock item =>
      rcases lockRonly_cases hstep with ⟨_, rfl, rfl, rfl⟩
      exact ⟨q, .nothing rfl, hmid⟩
  | pushFullRead item =>
      cases hstep
      cases hfull : m.buffer.size == length with
      | false => exact ⟨q, .nothing rfl, hmid, hfull.symm⟩
      | true =>
          -- a full buffer turns the push away
          have hq : ¬ q.length < length.toNat := by
            rw [isFull_of_size hsize, beq_iff_eq] at hfull
            omega
          have happly : BoundedQueue.apply length.toNat q (.push item) = (.flag false, q) :=
            if_neg hq
          refine ⟨_, .effect (.push item) rfl ?_, ?_⟩
          · rw [happly]
            rfl
          · rw [happly]
            exact ⟨hmid, hfull.symm⟩
  | pushFullUnlock item full =>
      cases hstep
      rcases hmid with ⟨hholds, rfl⟩
      cases hfull : m.buffer.isFull with
      | false => exact ⟨q, .nothing (by simp [Pc.phase]), hholds, hfull⟩
      | true => exact ⟨q, .nothing (by simp [Pc.phase]), hholds⟩
  | pushWrite item =>
      rcases hmid with ⟨hholds, hfull⟩
      have hend := hholds.1.end_lt
      simp only [advanceCall, hend, dif_pos, goOn, Option.some.injEq, Prod.mk.injEq] at hstep
      rcases hstep with ⟨rfl, rfl, rfl⟩
      have hpush : m.buffer.push item = .ok (true,
          { m.buffer with
            circBuffer := m.buffer.circBuffer.set m.buffer.endPos.toNat item hend
            endPos := CircularBuffer.advance length m.buffer.endPos
            size := m.buffer.size + 1 }) := by
        simp [CircularBuffer.push, hfull, hend]
      exact ⟨q, .nothing rfl, m.buffer, _, hholds, hpush, rfl⟩
  | pushAdvance item =>
      cases hstep
      rcases hmid with ⟨b₀, b₁, hholds, hpush, hb⟩
      exact ⟨q, .nothing rfl, b₀, b₁, hholds, hpush, by rw [hb]⟩
  | pushWrap item =>
      cases hstep
      rcases hmid with ⟨b₀, b₁, hholds, hpush, hb⟩
      refine ⟨q, .nothing rfl, b₀, b₁, hholds, hpush, ?_⟩
      have hend := (push_fields hpush).2.1
      rw [hb]
      unfold CircularBuffer.advance at hend
      split <;> rename_i hlast
      · rw [if_pos hlast] at hend
        rw [← hend]
      · rw [if_neg hlast] at hend
        rw [← hend]
  | pushLoad item =>
      cases hstep
      rcases hmid with ⟨b₀, b₁, hholds, hpush, hb⟩
      exact ⟨q, .nothing rfl, b₀, b₁, hholds, hpush, hb, by rw [hb]⟩
  | pushStore item loaded =>
      cases hstep
      rcases hmid with ⟨b₀, b₁, hholds, hpush, hb, rfl⟩
      rcases hholds.push hpush with ⟨hroom, hholds'⟩
      have happly : BoundedQueue.apply length.toNat q (.push item) = (.flag true, q ++ [item]) :=
        if_pos hroom
      refine ⟨_, .effect (.push item) rfl ?_, ?_⟩
      · rw [happly]
        rfl
      · rw [happly, hb, ← (push_fields hpush).2.2]
        exact hholds'
  | pushUnlock ok =>
      cases hstep
      exact ⟨q, .answer _ rfl, hmid⟩
  | popEmptyLock =>
      rcases lockRonly_cases hstep with ⟨_, rfl, rfl, rfl⟩
      exact ⟨q, .nothing rfl, hmid⟩
  | popEmptyRead =>
      cases hstep
      cases hempty : m.buffer.size == 0 with
      | false => exact ⟨q, .nothing rfl, hmid, hempty.symm⟩
      | true =>
          -- an empty buffer has nothing to return
          have hq : q = [] := by
            rw [isEmpty_of_size hsize, beq_iff_eq, List.length_eq_zero_iff] at hempty
            exact hempty
          subst hq
          exact ⟨_, .effect .pop rfl rfl, hmid, hempty.symm⟩
  | popEmptyUnlock empty =>
      cases hstep
      rcases hmid with ⟨hholds, rfl⟩
      cases hempty : m.buffer.isEmpty with
      | false => exact ⟨q, .nothing (by simp [Pc.phase]), hholds, hempty⟩
      | true => exact ⟨q, .nothing (by simp [Pc.phase]), hholds⟩
  | popRead =>
      rcases hmid with ⟨hholds, hempty⟩
      have hbegin := hholds.1.begin_lt
      simp only [advanceCall, hbegin, dif_pos, goOn, Option.some.injEq, Prod.mk.injEq] at hstep
      rcases hstep with ⟨rfl, rfl, rfl⟩
      exact ⟨q, .nothing rfl, hholds, _, by
        simp only [CircularBuffer.pop, hempty, hbegin, dif_pos, Bool.false_eq_true, if_false]
        rfl⟩
  | popLoad item =>
      cases hstep
      exact ⟨q, .nothing rfl, hmid.1, hmid.2, rfl⟩
  | popStore item loaded =>
      cases hstep
      rcases hmid with ⟨hholds, ⟨b₁, hpop⟩, rfl⟩
      rcases hholds.pop hpop with ⟨hq, _⟩
      have happly : BoundedQueue.apply length.toNat q .pop = (.item (some item), q.tail) := by
        rw [hq]
        rfl
      refine ⟨_, .effect .pop rfl ?_, ?_⟩
      · rw [happly]
        rfl
      · rw [happly]
        exact ⟨m.buffer, b₁, hq ▸ hholds, hpop, by rw [pop_fields hpop]⟩
  | popAdvance item =>
      cases hstep
      rcases hmid with ⟨b₀, b₁, hholds, hpop, hb⟩
      exact ⟨q, .nothing rfl, b₀, b₁, hholds, hpop, by rw [hb]⟩
  | popWrap item =>
      cases hstep
      rcases hmid with ⟨b₀, b₁, hholds, hpop, hb⟩
      refine ⟨q, .nothing rfl, ?_⟩
      have hresult : (if m.buffer.beginPos == length then
          { m.buffer with beginPos := 0 } else m.buffer) = b₁ := by
        rw [hb, pop_fields hpop]
        unfold CircularBuffer.advance
        split <;> rfl
      rw [hresult]
      exact (hholds.pop hpop).2
  | popUnlock item =>
      cases hstep
      exact ⟨q, .answer _ rfl, hmid⟩
  | _ => simp [Pc.holdsRw] at hin

/-- What a statement does to the two mutexes. -/
theorem advance_mutexes (hstep : advanceCall m i pc = some (m', pc', e)) :
    Mutex.Moved Pc.holdsRw i pc pc' m.rwMtx m'.rwMtx ∧
      Mutex.Moved Pc.holdsRonly i pc pc' m.ronlyMtx m'.ronlyMtx := by
  cases pc with
  | pushLock item | popLock =>
      rcases lockRw_cases hstep with ⟨hfree, rfl, rfl, rfl⟩
      rw [hfree]
      exact ⟨.lock rfl, .keep rfl⟩
  | pushFullLock item | popEmptyLock | emptyLock | fullLock =>
      rcases lockRonly_cases hstep with ⟨hfree, rfl, rfl, rfl⟩
      rw [hfree]
      exact ⟨.keep rfl, .lock rfl⟩
  | pushFullUnlock item full =>
      cases hstep
      cases full with
      | false => exact ⟨.keep rfl, .unlock rfl rfl⟩
      | true => exact ⟨.keep rfl, .unlock rfl rfl⟩
  | popEmptyUnlock empty =>
      cases hstep
      cases empty with
      | false => exact ⟨.keep rfl, .unlock rfl rfl⟩
      | true => exact ⟨.keep rfl, .unlock rfl rfl⟩
  | emptyUnlock answer | fullUnlock answer =>
      cases hstep
      exact ⟨.keep rfl, .unlock rfl rfl⟩
  | pushUnlock answer | popUnlock answer =>
      cases hstep
      exact ⟨.unlock rfl rfl, .keep rfl⟩
  | pushWrite item | popRead =>
      dsimp only [advanceCall] at hstep
      split at hstep <;> cases hstep <;> exact ⟨.keep rfl, .keep rfl⟩
  | returned => cases hstep
  | _ =>
      cases hstep
      exact ⟨.keep rfl, .keep rfl⟩

end Statements

/-! ## The simulation -/

/-- The buffer and the calls on it, seen as a queue that is called atomically. -/
structure Simulates (h : List (Event T)) (s : State T length)
    (u : AtomicObject.State (List T) (Op T) (Result T)) : Prop where
  calls : u.calls = s.calls.map Pc.phase
  rw : Mutex.Owned Pc.holdsRw s.memory.rwMtx s.calls
  ronly : Mutex.Owned Pc.holdsRonly s.memory.ronlyMtx s.calls
  free : s.memory.rwMtx = none → Holds s.memory.buffer u.object
  held : ∀ (i : Nat) pc, s.calls[i]? = some pc → pc.holdsRw = true → Mid pc s.memory.buffer u.object
  inside : ∀ f, Event.fault f ∉ h

theorem Simulates.size {h : List (Event T)} {s : State T length}
    {u : AtomicObject.State (List T) (Op T) (Result T)} (hsim : Simulates h s u) :
    s.memory.buffer.size.toNat = u.object.length := by
  cases hrw : s.memory.rwMtx with
  | none => exact (hsim.free hrw).size
  | some i =>
      rcases hsim.rw.holder hrw with ⟨pc, hi, hin⟩
      exact (hsim.held i pc hi hin).size

theorem step_cases {s s' : State T length} {a : Action T} {e : Event T}
    (hstep : step s a = some (s', e)) :
    (∃ o, a = .call o ∧ s' = { s with calls := s.calls ++ [enter o] } ∧
      e = .seen (.call s.calls.length o)) ∨
    (∃ i pc m' pc', a = .advance i ∧ s.calls[i]? = some pc ∧
      advanceCall s.memory i pc = some (m', pc', e) ∧ s' = ⟨m', s.calls.set i pc'⟩) := by
  cases a with
  | call o =>
      cases hstep
      exact .inl ⟨o, rfl, rfl, rfl⟩
  | advance i =>
      rcases Option.bind_eq_some_iff.mp hstep with ⟨pc, hi, hmap⟩
      rcases Option.map_eq_some_iff.mp hmap with ⟨⟨m', pc', e'⟩, hadvance, heq⟩
      cases heq
      exact .inr ⟨i, pc, m', pc', rfl, hi, hadvance, rfl⟩

/-- What a statement takes is at most one step of the atomic queue. -/
theorem Takes.matched {i : Nat} {q q' : List T} {pc pc' : Pc T} {e : Event T}
    {calls : List (Pc T)} (htakes : Takes length i q pc pc' e q') (hi : calls[i]? = some pc) :
    (e.shown = none ∧ q' = q ∧ (calls.set i pc').map Pc.phase = calls.map Pc.phase) ∨
      ∃ b d, AtomicObject.step (BoundedQueue.apply length.toNat) ⟨q, calls.map Pc.phase⟩ b =
          some (⟨q', (calls.set i pc').map Pc.phase⟩, d) ∧ d.shown = e.shown := by
  have hphase : (calls.map Pc.phase)[i]? = some pc.phase := by
    rw [List.getElem?_map, hi]
    rfl
  cases htakes with
  | nothing hsame =>
      refine .inl ⟨rfl, rfl, ?_⟩
      rcases List.getElem?_eq_some_iff.mp hphase with ⟨hlt, hval⟩
      rw [List.map_set, hsame, ← hval]
      exact List.set_getElem_self hlt
  | effect o hcalled hcommitted =>
      refine .inr ⟨.commit i, .commit ⟨i, o, (BoundedQueue.apply length.toNat q o).1⟩, ?_, rfl⟩
      rw [hcalled] at hphase
      simp only [AtomicObject.step, hphase, List.map_set, hcommitted]
  | answer r hcommitted =>
      refine .inr ⟨.ret i, .seen (.ret i r), ?_, rfl⟩
      rw [hcommitted] at hphase
      simp only [AtomicObject.step, hphase, List.map_set]
      rfl

theorem Takes.not_fault {i : Nat} {q q' : List T} {pc pc' : Pc T} {e : Event T}
    (htakes : Takes length i q pc pc' e q') (f : Fault) : e ≠ .fault f := by
  cases htakes <;> nofun

theorem not_mem_snoc {h : List (Event T)} {e : Event T} {f : Fault}
    (hinside : Event.fault f ∉ h) (hne : e ≠ .fault f) : Event.fault f ∉ h ++ [e] := by
  rw [List.mem_append, List.mem_singleton]
  rintro (hmem | heq)
  · exact hinside hmem
  · exact hne heq.symm

/-- What a call goes on to do keeps the simulation, for what it takes from the queue. -/
theorem Simulates.advance {h : List (Event T)} {s : State T length}
    {u : AtomicObject.State (List T) (Op T) (Result T)} (hsim : Simulates h s u) {i : Nat}
    {pc pc' : Pc T} {m' : Memory T length} {e : Event T} (hi : s.calls[i]? = some pc)
    (hadvance : advanceCall s.memory i pc = some (m', pc', e)) :
    ∃ q', Takes length i u.object pc pc' e q' ∧
      Simulates (h ++ [e]) ⟨m', s.calls.set i pc'⟩
        ⟨q', (s.calls.set i pc').map Pc.phase⟩ := by
  rcases advance_mutexes hadvance with ⟨hrw, hronly⟩
  have hrw' := hsim.rw.step hi hrw
  cases hin : pc.holdsRw with
  | true =>
      rcases advance_inside hin (hsim.held i pc hi hin) hadvance with ⟨q', htakes, hmid⟩
      refine ⟨q', htakes, rfl, hrw', hsim.ronly.step hi hronly, ?_, ?_,
        fun f => not_mem_snoc (hsim.inside f) (htakes.not_fault f)⟩
      · -- the call has released the mutex, with nothing left to write
        intro hfree
        have hout := hrw'.not_holds hfree (StepSystem.getElem?_set_of_some hi)
        cases pc' with
        | pushLock _ | popLock | emptyLock | emptyRead | emptyUnlock _ | fullLock | fullRead
        | fullUnlock _ | returned => exact hmid
        | _ => simp [Pc.holdsRw] at hout
      · intro j p hj hp
        rcases StepSystem.getElem?_set_cases hj with ⟨_, rfl⟩ | ⟨hne, hold⟩
        · exact hmid
        · exact absurd (hsim.rw.unique hold hp hi hin) hne
  | false =>
      rcases advance_outside hin hsim.size hadvance with ⟨hbuffer, htakes, henter⟩
      refine ⟨u.object, htakes, rfl, hrw', hsim.ronly.step hi hronly, ?_, ?_,
        fun f => not_mem_snoc (hsim.inside f) (htakes.not_fault f)⟩
      · intro hfree
        rw [hbuffer]
        exact hsim.free (hrw.free_before hin hfree)
      · intro j p hj hp
        rw [hbuffer]
        rcases StepSystem.getElem?_set_cases hj with ⟨rfl, rfl⟩ | ⟨_, hold⟩
        · -- the mutex was free when the call took it
          exact henter hp (hsim.free (hrw.free_of_lock hin hp))
        · exact hsim.held j p hold hp

theorem simulates_start (hpos : 0 < length.toNat) (raw : CircularBuffer T length) :
    Simulates [] (system raw).init ⟨[], []⟩ where
  calls := rfl
  rw := Mutex.owned_nil
  ronly := Mutex.owned_nil
  free := fun _ => ⟨CircularBuffer.construct_wf hpos raw, rfl⟩
  held := by simp [system]
  inside := by simp

/-- One step of the calls is at most one step of the atomic queue. -/
theorem simulates_step {h : List (Event T)} {s s' : State T length}
    {u : AtomicObject.State (List T) (Op T) (Result T)} {a : Action T} {e : Event T}
    (hsim : Simulates h s u) (hstep : step s a = some (s', e)) :
    (e.shown = none ∧ Simulates (h ++ [e]) s' u) ∨
      ∃ b u' d, AtomicObject.step (BoundedQueue.apply length.toNat) u b = some (u', d) ∧
        d.shown = e.shown ∧ Simulates (h ++ [e]) s' u' := by
  rcases u with ⟨q, calls⟩
  have hcalls : calls = s.calls.map Pc.phase := hsim.calls
  subst hcalls
  rcases step_cases hstep with ⟨o, rfl, rfl, rfl⟩ | ⟨i, pc, m', pc', rfl, hi, hadvance, rfl⟩
  · have houtside : (enter o).holdsRw = false ∧ (enter o).holdsRonly = false ∧
        (enter o).phase = .called o := by cases o <;> exact ⟨rfl, rfl, rfl⟩
    rcases houtside with ⟨hrw, hronly, hphase⟩
    refine .inr ⟨.call o, _, _, rfl, by simp [Event.shown, AtomicObject.Event.shown], ?_⟩
    refine ⟨by simp [hphase], hsim.rw.start hrw, hsim.ronly.start hronly, hsim.free, ?_,
      fun f => not_mem_snoc (hsim.inside f) (by simp)⟩
    intro i pc hi hpc
    rcases StepSystem.getElem?_append_cases hi with ⟨_, rfl⟩ | hold
    · simp [hrw] at hpc
    · exact hsim.held i pc hold hpc
  · rcases hsim.advance hi hadvance with ⟨q', htakes, hsim'⟩
    rcases htakes.matched hi with ⟨hshown, rfl, hsame⟩ | ⟨b, d, hmatch, hshown⟩
    · rw [hsame] at hsim'
      exact .inl ⟨hshown, hsim'⟩
    · exact .inr ⟨b, _, d, hmatch, hshown, hsim'⟩

/-- What every run of the calls keeps. -/
theorem simulates_of_run (hpos : 0 < length) (raw : CircularBuffer T length)
    {h : List (Event T)} {s : State T length} (hrun : (system raw).Run StepSystem.Any h s) :
    ∃ cs calls,
      Linearization (BoundedQueue.apply length.toNat) [] (h.filterMap Event.shown) cs ∧
      Simulates h s ⟨(BoundedQueue.run length.toNat [] (cs.map (·.op))).2, calls⟩ := by
  have hpos' : 0 < length.toNat := UInt64.lt_iff_toNat_lt.mp hpos
  refine AtomicObject.linearization_of_simulation Simulates Event.shown
    (simulates_start hpos' raw) ?_ hrun
  intro h s a s' e u _ hsim _ hstep
  exact simulates_step hsim hstep

/-- Under every schedule the calls of the member functions are linearizable with respect to
the bounded queue, no statement leaves the array, and whenever no `push` or `pop` is under
way the buffer holds what the calls, in this order, leave in the queue. -/
theorem linearizable (hpos : 0 < length) (raw : CircularBuffer T length) {h : List (Event T)}
    {s : State T length} (hrun : (system raw).Run StepSystem.Any h s) :
    (∃ cs, Linearization (BoundedQueue.apply length.toNat) [] (h.filterMap Event.shown) cs ∧
      (s.memory.rwMtx = none →
        Holds s.memory.buffer (BoundedQueue.run length.toNat [] (cs.map (·.op))).2)) ∧
      ∀ f, Event.fault f ∉ h := by
  rcases simulates_of_run hpos raw hrun with ⟨cs, calls, hlin, hsim⟩
  exact ⟨⟨cs, hlin, hsim.free⟩, hsim.inside⟩

/-- A buffer for two numbers, in memory that was used before. -/
def usedTwo : CircularBuffer Nat 2 :=
  ⟨Vector.replicate _ 0, 7, 7, 7⟩

/-- A `push` is about to count its item when `is_empty` looks at the buffer. -/
def overlap : List (Action Nat) :=
  .call (.push 5) :: List.replicate 8 (.advance 0) ++ [.call .isEmpty]

/-- The two calls of the overlap, with what they answer. -/
theorem linearizable_overlap :
    ∃ cs, Linearization (BoundedQueue.apply 2) []
      [.call 0 (.push 5), .call 1 .isEmpty, .ret 1 (.flag true), .ret 0 (.flag true)] cs := by
  have hexec : ((system usedTwo).exec (overlap ++
      [.advance 1, .advance 1, .advance 0, .advance 1, .advance 0])).map (·.1) =
      some (.seen (.call 0 (.push 5)) :: List.replicate 8 .silent ++
        [.seen (.call 1 .isEmpty), .silent, .silent, .silent, .seen (.ret 1 (.flag true)),
          .seen (.ret 0 (.flag true))]) := rfl
  rcases StepSystem.Run.exists_of_exec hexec with ⟨s, hrun⟩
  rcases (linearizable (by decide) usedTwo hrun).1 with ⟨cs, hlin, _⟩
  exact ⟨cs, hlin⟩

/-! ## Every call returns -/

/-- How many statements a call still executes, at most. -/
def Pc.remaining : Pc T → Nat
  | .pushLock _ | .popLock => 10
  | .pushFullLock _ | .popEmptyLock => 9
  | .pushFullRead _ | .popEmptyRead => 8
  | .pushFullUnlock _ _ | .popEmptyUnlock _ => 7
  | .pushWrite _ | .popRead => 6
  | .pushAdvance _ | .popLoad _ => 5
  | .pushWrap _ | .popStore _ _ => 4
  | .pushLoad _ | .popAdvance _ | .emptyLock | .fullLock => 3
  | .pushStore _ _ | .popWrap _ | .emptyRead | .fullRead => 2
  | .pushUnlock _ | .popUnlock _ | .emptyUnlock _ | .fullUnlock _ => 1
  | .returned => 0

/-- How many statements all calls still execute, at most. -/
def State.remaining (s : State T length) : Nat :=
  (s.calls.map Pc.remaining).sum

/-- Actions that make no new call. -/
def Action.advances : Action T → Bool
  | .call _ => false
  | .advance _ => true

theorem remaining_of_advance {m m' : Memory T length} {i : Nat} {pc pc' : Pc T} {e : Event T}
    (hstep : advanceCall m i pc = some (m', pc', e)) (hinside : ∀ f, e ≠ .fault f) :
    pc'.remaining < pc.remaining := by
  cases pc with
  | pushLock item | popLock =>
      rcases lockRw_cases hstep with ⟨_, _, rfl, _⟩
      simp [Pc.remaining]
  | pushFullLock item | popEmptyLock | emptyLock | fullLock =>
      rcases lockRonly_cases hstep with ⟨_, _, rfl, _⟩
      simp [Pc.remaining]
  | pushFullUnlock item answer =>
      cases hstep
      cases answer <;> simp [Pc.remaining]
  | popEmptyUnlock answer =>
      cases hstep
      cases answer <;> simp [Pc.remaining]
  | pushWrite item | popRead =>
      dsimp only [advanceCall] at hstep
      split at hstep
      · cases hstep
        simp [Pc.remaining]
      · cases hstep
        exact absurd rfl (hinside _)
  | returned => cases hstep
  | _ =>
      cases hstep
      simp [Pc.remaining]

/-- A call that has not returned can go on if the mutex it waits for, if any, is free. -/
theorem advance_isSome {m : Memory T length} {pc : Pc T} (i : Nat) (hpc : pc ≠ .returned)
    (hrw : pc.holdsRw = true ∨ pc.holdsRonly = true ∨ m.rwMtx = none)
    (hronly : pc.holdsRonly = true ∨ m.ronlyMtx = none) :
    (advanceCall m i pc).isSome = true := by
  cases pc with
  | pushLock item | popLock =>
      have hfree : m.rwMtx = none := by simpa [Pc.holdsRw, Pc.holdsRonly] using hrw
      simp [advanceCall, lockRw, hfree]
  | pushFullLock item | popEmptyLock | emptyLock | fullLock =>
      have hfree : m.ronlyMtx = none := by simpa [Pc.holdsRonly] using hronly
      simp [advanceCall, lockRonly, hfree]
  | pushWrite item | popRead =>
      dsimp only [advanceCall]
      split <;> rfl
  | returned => exact absurd rfl hpc
  | _ => rfl

/-- As long as a call has not returned, some call can go on. -/
theorem Simulates.progress {h : List (Event T)} {s : State T length}
    {u : AtomicObject.State (List T) (Op T) (Result T)} (hsim : Simulates h s u) {pc : Pc T}
    (hmem : pc ∈ s.calls) (hpc : pc ≠ .returned) : ∃ i, step s (.advance i) ≠ none := by
  have henabled : ∀ (i : Nat) p, s.calls[i]? = some p →
      (advanceCall s.memory i p).isSome = true → ∃ i, step s (.advance i) ≠ none := by
    intro i p hi hsome
    rcases Option.isSome_iff_exists.mp hsome with ⟨r, hr⟩
    exact ⟨i, by simp [step, hi, hr]⟩
  have hrunning : ∀ {p : Pc T}, (p.holdsRw = true ∨ p.holdsRonly = true) → p ≠ .returned := by
    rintro p hp rfl
    simp [Pc.holdsRw, Pc.holdsRonly] at hp
  cases hronly : s.memory.ronlyMtx with
  | some j =>
      -- the holder of the inner mutex waits for nothing
      rcases hsim.ronly.holder hronly with ⟨p, hj, hp⟩
      exact henabled j p hj (advance_isSome j (hrunning (.inr hp)) (.inr (.inl hp)) (.inl hp))
  | none =>
      cases hrw : s.memory.rwMtx with
      | some j =>
          rcases hsim.rw.holder hrw with ⟨p, hj, hp⟩
          exact henabled j p hj (advance_isSome j (hrunning (.inl hp)) (.inl hp) (.inr hronly))
      | none =>
          rcases List.mem_iff_getElem?.mp hmem with ⟨i, hi⟩
          exact henabled i pc hi (advance_isSome i hpc (.inr (.inr hrw)) (.inr hronly))

/-- From every state reached on, every schedule that makes no new call is bounded, and it
comes to an end only when all calls have returned. -/
theorem calls_return (hpos : 0 < length) (raw : CircularBuffer T length) {h : List (Event T)}
    {s : State T length} (hrun : (system raw).Run StepSystem.Any h s) :
    (∀ as h' s', (system raw).execFrom (fun _ _ a => a.advances) h s as = some (h', s') →
      as.length + s'.remaining ≤ s.remaining) ∧
    ((∀ i, step s (.advance i) = none) → ∀ pc ∈ s.calls, pc = .returned) := by
  rcases simulates_of_run hpos raw hrun with ⟨cs, calls, _, hsim⟩
  constructor
  · intro as h' s' hexec
    refine StepSystem.execFrom_length_le (I := fun h s => ∃ u, Simulates h s u)
      (μ := State.remaining) ?_ ⟨_, hsim⟩ hexec
    rintro h s a s' e ⟨u, hsim⟩ hadvances hstep
    have hsim' : ∃ u', Simulates (h ++ [e]) s' u' := by
      rcases simulates_step hsim hstep with ⟨_, hnext⟩ | ⟨_, u', _, _, _, hnext⟩
      · exact ⟨u, hnext⟩
      · exact ⟨u', hnext⟩
    refine ⟨hsim', ?_⟩
    rcases hsim' with ⟨u', hnext⟩
    rcases step_cases hstep with ⟨o, rfl, _, _⟩ | ⟨i, pc, m', pc', rfl, hi, hadvance, rfl⟩
    · simp [Action.advances] at hadvances
    · refine StepSystem.sum_map_set_lt hi (remaining_of_advance hadvance ?_)
      intro f heq
      exact hnext.inside f (by simp [heq])
  · intro hstuck pc hmem
    by_contra hpc
    rcases hsim.progress hmem hpc with ⟨i, hi⟩
    exact hi (hstuck i)

/-- At the overlap the two calls execute five statements more, whatever comes next. -/
theorem calls_return_overlap :
    ∃ h s, (system usedTwo).Run StepSystem.Any h s ∧ s.calls.length = 2 ∧
      ∀ as h' s', (system usedTwo).execFrom (fun _ _ a => a.advances) h s as = some (h', s') →
        as.length + s'.remaining ≤ 5 := by
  have hexec : ∃ h s, (system usedTwo).exec overlap = some (h, s) ∧ s.calls.length = 2 ∧
      s.remaining = 5 := ⟨_, _, rfl, rfl, rfl⟩
  rcases hexec with ⟨h, s, hexec, hcalls, hremaining⟩
  have hrun := StepSystem.Run.of_exec hexec
  refine ⟨h, s, hrun, hcalls, ?_⟩
  rw [← hremaining]
  exact (calls_return (by decide) usedTwo hrun).1

end SharedBuffer

end SimpleMessenger
