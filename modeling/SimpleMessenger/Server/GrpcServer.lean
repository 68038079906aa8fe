import Mathlib.Logic.Function.Basic
import SimpleMessenger.Common.CircularBuffer
import SimpleMessenger.Common.MessageProcessing

/-!
# The post box of `GrpcServer.cpp`

The server keeps one mailbox for every user that is online, in a hash map whose
keys are exactly the online users.  A mailbox holds envelopes; here each of them
also carries the number of the call that pushed it, which the program does not
look at.  Memory in which a mailbox is built is a parameter, since the move
constructor leaves part of it as it was.

Main results:

- Theorem {lit}`isOnline_addUserToConnected` and its companions: what each
  operation does to the keys.
- Theorem {lit}`pushAt_spec` and {lit}`popAt_spec`: a mailbox access on
  well-formed mailboxes, in terms of the envelopes held for every user.
- Theorem {lit}`movedMailbox_iff`: when moving a buffer, and with it logging in,
  gives the mailbox it should.
-/

universe w

namespace SimpleMessenger

open CMemory BoundedQueue CircularBuffer

/-! ## Mailboxes -/

/-- A stored envelope, with the number of the call that stored it. -/
structure Parcel where
  call : Nat
  env : Envelope
deriving DecidableEq

/-- `PostBoxCell` -/
abbrev PostBoxCell := CircularBuffer Parcel 32

/-- `post_box`, whose keys are the users with a mailbox. -/
abbrev PostBox := UserID → Option PostBoxCell

namespace PostBox

/-- `addUserToConnected`: a mailbox constructed in the memory `stack` is moved
into a map node in the memory `heap`, unless the key exists. -/
def addUserToConnected (box : PostBox) (newUser : UserID) (stack heap : PostBoxCell) :
    PostBox :=
  match box newUser with
  | some _ => box
  | none => Function.update box newUser (some (moveConstruct heap (construct stack)))

def disconnectUser (box : PostBox) (user : UserID) : PostBox :=
  Function.update box user none

def isOnline (box : PostBox) (user : UserID) : Bool :=
  (box user).isSome

/-- `post_box[user]`: a missing key gets a mailbox constructed in `heap`. -/
def cellAt (box : PostBox) (user : UserID) (heap : PostBoxCell) : PostBoxCell :=
  (box user).getD (construct heap)

/-- `post_box[user].push(item)` -/
def pushAt (box : PostBox) (user : UserID) (heap : PostBoxCell) (item : Parcel) :
    Checked (Bool × PostBox) :=
  (fun r => (r.1, Function.update box user (some r.2))) <$> (box.cellAt user heap).push item

/-- `post_box[user].pop()` -/
def popAt (box : PostBox) (user : UserID) (heap : PostBoxCell) :
    Checked (Option Parcel × PostBox) :=
  (fun r => (r.1, Function.update box user (some r.2))) <$> (box.cellAt user heap).pop

/-! ## The keys -/

variable {box : PostBox} {u v : UserID} {stack heap : PostBoxCell}

theorem isOnline_addUserToConnected :
    (box.addUserToConnected u stack heap).isOnline v = true ↔ v = u ∨ box.isOnline v = true := by
  unfold addUserToConnected isOnline
  cases hbox : box u with
  | some cell =>
      by_cases hv : v = u
      · simp [hv, hbox]
      · simp [hv]
  | none =>
      by_cases hv : v = u
      · simp [hv]
      · simp [hv]

theorem isOnline_disconnectUser :
    (box.disconnectUser u).isOnline v = true ↔ v ≠ u ∧ box.isOnline v = true := by
  unfold disconnectUser isOnline
  by_cases hv : v = u
  · simp [hv]
  · simp [hv]

/-- Storing a mailbox makes its user a key. -/
theorem isOnline_update {cell : PostBoxCell} :
    isOnline (Function.update box u (some cell)) v = true ↔ v = u ∨ box.isOnline v = true := by
  unfold isOnline
  by_cases hv : v = u
  · simp [hv]
  · simp [hv]

/-- An access through {lit}`operator[]`, whatever it computes, makes its user a
key. -/
theorem isOnline_stored {ρ : Type} {access : Checked (ρ × PostBoxCell)} {r : ρ}
    {box' : PostBox}
    (haccess : (fun r => (r.1, Function.update box u (some r.2))) <$> access = .ok (r, box')) :
    box'.isOnline v = true ↔ v = u ∨ box.isOnline v = true := by
  rcases map_eq_ok_iff.mp haccess with ⟨r', _, hpair⟩
  cases hpair
  exact isOnline_update

theorem isOnline_pushAt {item : Parcel} {ok : Bool} {box' : PostBox}
    (hpush : box.pushAt u heap item = .ok (ok, box')) :
    box'.isOnline v = true ↔ v = u ∨ box.isOnline v = true :=
  isOnline_stored hpush

theorem isOnline_popAt {item : Option Parcel} {box' : PostBox}
    (hpop : box.popAt u heap = .ok (item, box')) :
    box'.isOnline v = true ↔ v = u ∨ box.isOnline v = true :=
  isOnline_stored hpop

/-! ## The envelopes held -/

/-- The envelopes held for a user, oldest first. -/
def held (box : PostBox) (user : UserID) : List Parcel :=
  match box user with
  | none => []
  | some cell => cell.contents

/-- Every mailbox is well formed. -/
def WF (box : PostBox) : Prop :=
  ∀ u cell, box u = some cell → cell.WF

theorem wf_empty : WF fun _ => none := by
  intro u cell hcell
  contradiction

theorem wf_update (hwf : box.WF) {cell : PostBoxCell} (hcell : cell.WF) :
    WF (Function.update box u (some cell)) := by
  intro v cell' hv
  by_cases hvu : v = u
  · subst hvu
    rw [Function.update_self] at hv
    cases hv
    exact hcell
  · rw [Function.update_of_ne hvu] at hv
    exact hwf v cell' hv

theorem held_update (box : PostBox) (u : UserID) (cell : PostBoxCell) :
    held (Function.update box u (some cell)) = Function.update box.held u cell.contents := by
  funext v
  by_cases hvu : v = u
  · subst hvu
    simp [held]
  · simp [held, hvu]

theorem wf_disconnectUser (hwf : box.WF) (u : UserID) : (box.disconnectUser u).WF := by
  intro v cell hv
  by_cases hvu : v = u
  · subst hvu
    simp [disconnectUser] at hv
  · rw [disconnectUser, Function.update_of_ne hvu] at hv
    exact hwf v cell hv

theorem held_disconnectUser (box : PostBox) (u : UserID) :
    (box.disconnectUser u).held = Function.update box.held u [] := by
  funext v
  by_cases hvu : v = u
  · subst hvu
    simp [held, disconnectUser]
  · simp [held, disconnectUser, hvu]

/-- The mailbox behind {lit}`operator[]` is well formed and holds what is held for
the user: a mailbox inserted for a missing key is empty. -/
theorem cellAt_spec (hwf : box.WF) (u : UserID) (heap : PostBoxCell) :
    (box.cellAt u heap).WF ∧ (box.cellAt u heap).contents = box.held u := by
  unfold cellAt held
  cases hbox : box u with
  | some cell => exact ⟨hwf u cell hbox, rfl⟩
  | none => exact ⟨construct_wf (by decide) heap, rfl⟩

/-- A push on well-formed mailboxes appends while there is room. -/
theorem pushAt_spec (hwf : box.WF) {item : Parcel} {ok : Bool} {box' : PostBox}
    (hpush : box.pushAt u heap item = .ok (ok, box')) :
    box'.WF ∧ box'.held =
      Function.update box.held u (if ok then box.held u ++ [item] else box.held u) := by
  rcases cellAt_spec hwf u heap with ⟨hcell, hheld⟩
  rcases push_spec hcell item with ⟨cell', hcellPush, hwf', hcontents⟩
  rw [pushAt, hcellPush] at hpush
  cases hpush
  refine ⟨wf_update hwf hwf', ?_⟩
  rw [held_update, hcontents, hheld]
  simp only [decide_eq_true_eq]

/-- A pop on well-formed mailboxes takes the oldest envelope. -/
theorem popAt_spec (hwf : box.WF) {item : Option Parcel} {box' : PostBox}
    (hpop : box.popAt u heap = .ok (item, box')) :
    box'.WF ∧ item = (box.held u).head? ∧
      box'.held = Function.update box.held u (box.held u).tail := by
  rcases cellAt_spec hwf u heap with ⟨hcell, hheld⟩
  rcases pop_spec hcell with ⟨cell', hcellPop, hwf', hcontents⟩
  rw [popAt, hcellPop] at hpop
  cases hpop
  refine ⟨wf_update hwf hwf', by rw [hheld], ?_⟩
  rw [held_update, hcontents, hheld]

/-! ## Logging in -/

/-- What a login should install: a well-formed empty mailbox that takes 32
envelopes and is full after the last of them only. -/
def EmptyMailbox (box : PostBox) (user : UserID) : Prop :=
  ∃ cell, box user = some cell ∧ cell.WF ∧ cell.contents = [] ∧
    ∀ items : List Parcel, items.length ≤ 32 →
      ∃ cell', runOps apply cell (items.map .push) =
          .ok (List.replicate items.length (.flag true), cell') ∧
        cell'.isFull = decide (items.length = 32)

/-- The three cursors found in the memory of the map node are those of an empty
buffer. -/
structure CursorsEmpty (heap : PostBoxCell) : Prop where
  size_eq : heap.size = 0
  begin_lt : heap.beginPos < 32
  end_eq : heap.endPos = heap.beginPos

/-- A well-formed empty mailbox takes 32 envelopes. -/
theorem takes_pushes {cell : PostBoxCell} (hwf : cell.WF) (hempty : cell.contents = [])
    (items : List Parcel) (hroom : items.length ≤ 32) :
    ∃ cell', runOps apply cell (items.map .push) =
        .ok (List.replicate items.length (.flag true), cell') ∧
      cell'.isFull = decide (items.length = 32) := by
  rcases runOps_spec hwf (items.map .push) with ⟨cell', hrun, _, hcontents⟩
  have hcapacity : UInt64.toNat 32 = 32 := rfl
  rw [hempty, hcapacity, run_pushes items (by simpa using hroom)] at hrun hcontents
  refine ⟨cell', hrun, ?_⟩
  rw [isFull_eq (by decide), hcontents, hcapacity, List.nil_append]
  rfl

/-- Fitting cursors for an empty buffer are those of an empty buffer. -/
theorem cursorsFit_construct_iff : CursorsFit heap (construct stack) ↔ CursorsEmpty heap := by
  have hcapacity : UInt64.toNat 32 = 32 := rfl
  constructor
  · intro h
    have hbegin := h.begin_lt
    have hend := h.end_eq
    have hzero : heap.size = 0 := h.size_eq
    refine ⟨hzero, UInt64.lt_iff_toNat_lt.mpr hbegin, UInt64.toNat_inj.mp ?_⟩
    rw [hend, hzero, UInt64.toNat_zero, Nat.add_zero, Nat.mod_eq_of_lt hbegin]
  · intro h
    have hbegin : heap.beginPos.toNat < UInt64.toNat 32 := UInt64.lt_iff_toNat_lt.mp h.begin_lt
    refine ⟨h.size_eq, hbegin, ?_, ?_⟩
    · rw [h.end_eq, h.size_eq, UInt64.toNat_zero, Nat.add_zero, Nat.mod_eq_of_lt hbegin]
    · intro i hi
      exact absurd hi (Nat.not_lt_zero i)

/-- A node gets an empty mailbox exactly if its memory holds the cursors of
one. -/
theorem emptyMailbox_iff (hoffline : box.isOnline u = false) :
    EmptyMailbox (box.addUserToConnected u stack heap) u ↔ CursorsEmpty heap := by
  have hnone : box u = none := by
    simpa [isOnline] using hoffline
  have hcell : box.addUserToConnected u stack heap u =
      some (moveConstruct heap (construct stack)) := by
    simp [addUserToConnected, hnone]
  have hfit : CursorsFit heap (construct stack) ↔ CursorsEmpty heap := cursorsFit_construct_iff
  rw [← hfit, ← moveConstruct_carries_iff (construct_wf (by decide) stack), carries_iff]
  constructor
  · intro h
    rcases h with ⟨cell, hsome, hwf, hempty, _⟩
    rw [hcell] at hsome
    cases hsome
    exact ⟨hwf, hempty⟩
  · intro h
    rcases h with ⟨hwf, hempty⟩
    exact ⟨_, hcell, hwf, hempty, takes_pushes hwf hempty⟩

/-- Moving a buffer preserves the queue exactly when the memory it is moved into
already holds fitting cursors, and a login installs an empty mailbox exactly when
that memory holds the cursors of an empty one. -/
theorem movedMailbox_iff {T : Type w} {length : UInt64} {raw src : CircularBuffer T length}
    (hsrc : src.WF) (hoffline : box.isOnline u = false) :
    ((moveConstruct raw src).Carries src ↔ CursorsFit raw src) ∧
      (EmptyMailbox (box.addUserToConnected u stack heap) u ↔ CursorsEmpty heap) :=
  ⟨moveConstruct_carries_iff hsrc, emptyMailbox_iff hoffline⟩

/-- Memory for a mailbox, all bytes zero. -/
def clearedMemory : PostBoxCell where
  circBuffer := Vector.replicate 32 { call := 0, env := Envelope.zero }
  beginPos := 0
  endPos := 0
  size := 0

/-- Memory in which a full mailbox was left behind. -/
def usedMemory : PostBoxCell :=
  { clearedMemory with size := 32 }

theorem usedMemory_wf : usedMemory.WF :=
  ⟨by decide, by decide, by decide, by decide⟩

/-- Moving a buffer within memory that already describes it keeps the queue, and
in cleared memory a login installs an empty mailbox. -/
theorem movedMailbox_cleared :
    (moveConstruct usedMemory usedMemory).Carries usedMemory ∧
      EmptyMailbox (addUserToConnected (fun _ => none) 1 clearedMemory clearedMemory) 1 := by
  have hiff : ((moveConstruct usedMemory usedMemory).Carries usedMemory ↔
        CursorsFit usedMemory usedMemory) ∧
      (EmptyMailbox (addUserToConnected (fun _ => none) 1 clearedMemory clearedMemory) 1 ↔
        CursorsEmpty clearedMemory) :=
    movedMailbox_iff usedMemory_wf rfl
  exact ⟨hiff.1.mpr ⟨rfl, by decide, by decide, fun _ _ => rfl⟩,
    hiff.2.mpr ⟨rfl, by decide, rfl⟩⟩

/-- In the memory of a full mailbox the empty queue is not carried over, and a
login does not install an empty mailbox. -/
theorem movedMailbox_fails :
    ¬ (moveConstruct usedMemory (construct usedMemory)).Carries (construct usedMemory) ∧
      ¬ EmptyMailbox (addUserToConnected (fun _ => none) 1 usedMemory usedMemory) 1 := by
  constructor
  · intro h
    have hfit := (moveConstruct_carries_iff (construct_wf (by decide) usedMemory)).mp h
    exact absurd hfit.size_eq (by decide)
  · intro h
    have hempty := (emptyMailbox_iff rfl).mp h
    exact absurd hempty.size_eq (by decide)

end PostBox

end SimpleMessenger
