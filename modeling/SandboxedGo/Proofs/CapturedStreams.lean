import Mathlib.Data.List.Basic
import SandboxedGo.OutputBuffer
import SandboxedGo.Proofs.Visible

/-!
# What is captured of a stream

A buffer holds the beginning of all that was written through its handles, up to its capacity, and
knows whether that was everything.  So what is read from it depends on the bytes that were written
and on nothing else: neither on how they were cut into writes nor on which handles they went
through.
Main statement: `output_depends_on_stream`.
-/

set_option autoImplicit false

namespace SandboxedGo

/-! ## One buffer -/

namespace OutputBuffer

variable {b b' : OutputBuffer} {stream : List UInt8}

/-- A buffer has captured a stream: its first bytes, and whether there were more. -/
structure Captures (b : OutputBuffer) (stream : List UInt8) : Prop where
  bytes : b.bytes.data.toList = stream.take b.capacity
  truncated : b.truncated = true ↔ b.capacity < stream.length

theorem captures_new (capacity : Nat) : Captures { capacity := capacity } [] where
  bytes := by simp
  truncated := by simp

@[simp] theorem capacity_write (b : OutputBuffer) (bytes : ByteArray) :
    (b.write bytes).capacity = b.capacity := by
  simp only [write]
  split
  · rfl
  · rfl

theorem Captures.size (captures : b.Captures stream) : b.size = min b.capacity stream.length := by
  have lengths := congrArg List.length captures.bytes
  rw [List.length_take] at lengths
  exact lengths

theorem Captures.write (captures : b.Captures stream) (bytes : ByteArray) :
    (b.write bytes).Captures (stream ++ bytes.data.toList) := by
  have size : b.bytes.size = min b.capacity stream.length := captures.size
  have length : bytes.data.toList.length = bytes.size := rfl
  -- The room of a full buffer is none, whether its stream was cut or came out even.
  have room : b.capacity - b.bytes.size = b.capacity - stream.length := by omega
  simp only [OutputBuffer.write, room]
  split
  · rename_i fits
    refine ⟨?_, ?_⟩
    · have whole : bytes.data.toList.take (b.capacity - stream.length) = bytes.data.toList :=
        List.take_of_length_le fits
      simp [captures.bytes, List.take_append, whole]
    · show b.truncated = true ↔ b.capacity < (stream ++ bytes.data.toList).length
      rw [captures.truncated, List.length_append]
      omega
  · rename_i tooLong
    refine ⟨?_, ?_⟩
    · simp [captures.bytes, List.take_append]
    · rw [List.length_append]
      simp
      omega

/-- What is read from a buffer is decided by its capacity and the stream. -/
theorem Captures.contents_eq (captures : b.Captures stream) (captures' : b'.Captures stream)
    (capacity : b'.capacity = b.capacity) : b'.contents = b.contents := by
  have bytes : b'.bytes = b.bytes := by
    apply ByteArray.ext
    apply Array.toList_inj.mp
    rw [captures.bytes, captures'.bytes, capacity]
  have truncated : b'.truncated = b.truncated := by
    rw [Bool.eq_iff_iff, captures.truncated, captures'.truncated, capacity]
  unfold contents
  rw [bytes, truncated]

end OutputBuffer

/-! ## Many handles -/

namespace OutputEvent

/-- The capacity of the buffer that an event makes. -/
def capacity? : OutputEvent → Option Nat
  | create capacity => some capacity
  | _ => none

/-- The bytes that an event writes to one buffer, where each handle has its target. -/
def bytesTo (targets : List Nat) (target : Nat) : OutputEvent → List UInt8
  | write handle bytes => if targets[handle]? = some target then bytes.data.toList else []
  | _ => []

end OutputEvent

namespace OutputHandles

variable {t t' : OutputHandles} {e : OutputEvent} {events earlier later : List OutputEvent}

/-- The capacities of the buffers that events make. -/
def capacities (events : List OutputEvent) : List Nat := events.filterMap OutputEvent.capacity?

/-- All bytes that events write to one buffer, through whichever handles. -/
def written (targets : List Nat) (target : Nat) (events : List OutputEvent) : List UInt8 :=
  events.flatMap (OutputEvent.bytesTo targets target)

/-- What an event does to buffers and handles. -/
inductive Happens (t : OutputHandles) : OutputEvent → OutputHandles → Prop
  | created (capacity : Nat) : Happens t (.create capacity) (t.create capacity)
  | cloned {handle target : Nat} (refers : t.targets[handle]? = some target) :
    Happens t (.clone handle) (t.refer target)
  | wrote {handle target : Nat} (refers : t.targets[handle]? = some target) (bytes : ByteArray) :
    Happens t (.write handle bytes) (t.write target bytes)

theorem after_cases (after : t.after? e = some t') : Happens t e t' := by
  cases e with
  | create capacity =>
      cases after
      exact .created capacity
  | clone handle =>
      obtain ⟨target, refers, rfl⟩ := Option.map_eq_some_iff.mp after
      exact .cloned refers
  | write handle bytes =>
      obtain ⟨target, refers, rfl⟩ := Option.map_eq_some_iff.mp after
      exact .wrote refers bytes

theorem run_cons_cases {rest : List OutputEvent} (ran : t.run? (e :: rest) = some t') :
    ∃ next, Happens t e next ∧ next.run? rest = some t' := by
  obtain ⟨next, after, ran⟩ := Option.bind_eq_some_iff.mp ran
  exact ⟨next, after_cases after, ran⟩

theorem run_append_cases (ran : t.run? (earlier ++ later) = some t') :
    ∃ s, t.run? earlier = some s ∧ s.run? later = some t' := by
  rw [run?, List.foldlM_append] at ran
  exact Option.bind_eq_some_iff.mp ran

/-! ### What was captured stays -/

/-- Handles keep their buffers, and the bytes of a buffer stay the beginning of what it holds. -/
structure Grows (t t' : OutputHandles) : Prop where
  targets : t.targets <+: t'.targets
  buffers : ∀ {target : Nat} {b : OutputBuffer}, t.buffers[target]? = some b →
    ∃ b', t'.buffers[target]? = some b' ∧ b.Begins b'

theorem Grows.refl (t : OutputHandles) : Grows t t :=
  ⟨List.prefix_rfl, fun has => ⟨_, has, .refl _⟩⟩

theorem Grows.trans {s : OutputHandles} (first : Grows t s) (rest : Grows s t') : Grows t t' := by
  refine ⟨first.targets.trans rest.targets, fun has => ?_⟩
  obtain ⟨b, has, begins⟩ := first.buffers has
  obtain ⟨b', has', begins'⟩ := rest.buffers has
  exact ⟨b', has', List.IsPrefix.trans begins begins'⟩

theorem Happens.grows (happens : Happens t e t') : Grows t t' := by
  cases happens with
  | created capacity =>
      refine ⟨List.prefix_append _ _, fun {target b} has => ⟨b, ?_, .refl b⟩⟩
      have inside : target < t.buffers.length := (List.getElem?_eq_some_iff.mp has).1
      simpa [create, List.getElem?_append_left inside] using has
  | cloned refers => exact ⟨List.prefix_append _ _, fun has => ⟨_, has, .refl _⟩⟩
  | @wrote handle place refers bytes =>
      refine ⟨List.prefix_rfl, fun {target b} has => ?_⟩
      by_cases same : place = target
      · exact ⟨b.write bytes, by simp [write, same, has], OutputBuffer.write_begins b bytes⟩
      · exact ⟨b, by simp [write, same, has], .refl b⟩

theorem run_grows (ran : t.run? events = some t') : Grows t t' := by
  induction events generalizing t with
  | nil =>
      cases ran
      exact .refl _
  | cons e rest ih =>
      obtain ⟨next, happens, ran⟩ := run_cons_cases ran
      exact happens.grows.trans (ih ran)

/-- A handle still refers to its buffer, and what was read from it is read again. -/
theorem Grows.buffer {handle : Nat} {old : OutputBuffer} (grows : Grows t t')
    (was : t.buffer? handle = some old) :
    ∃ b, t'.buffer? handle = some b ∧ old.Begins b := by
  obtain ⟨target, refers, has⟩ := Option.bind_eq_some_iff.mp was
  obtain ⟨b, has', begins⟩ := grows.buffers has
  obtain ⟨more, targets⟩ := grows.targets
  have inside : handle < t.targets.length := (List.getElem?_eq_some_iff.mp refers).1
  refine ⟨b, ?_, begins⟩
  simp [buffer?, ← targets, List.getElem?_append_left inside, refers, has']

/-! ### What was captured is the stream -/

/-- After events every buffer has captured what was written to it. -/
structure Captured (events : List OutputEvent) (t : OutputHandles) : Prop where
  made : t.buffers.map OutputBuffer.capacity = capacities events
  streams : ∀ {target : Nat} {b : OutputBuffer}, t.buffers[target]? = some b →
    b.Captures (written t.targets target events)
  /-- Handles refer to buffers that there are. -/
  targets : ∀ target ∈ t.targets, target < t.buffers.length
  /-- Only handles that there are have been written through. -/
  handles : ∀ {handle : Nat} {bytes : ByteArray}, .write handle bytes ∈ events →
    handle < t.targets.length

theorem captured_start : Captured [] {} where
  made := rfl
  streams := by simp
  targets := by simp
  handles := by simp

theorem Captured.written_append (captured : Captured events t) (more : List Nat) (target : Nat) :
    written (t.targets ++ more) target events = written t.targets target events := by
  unfold written
  apply List.flatMap_congr
  intro e member
  cases e with
  | create capacity => rfl
  | clone handle => rfl
  | write handle bytes =>
      simp only [OutputEvent.bytesTo, List.getElem?_append_left (captured.handles member)]

theorem Captured.written_new (captured : Captured events t) :
    written t.targets t.buffers.length events = [] := by
  unfold written
  rw [List.flatMap_eq_nil_iff]
  intro e _
  cases e with
  | create capacity => rfl
  | clone handle => rfl
  | write handle bytes =>
      simp only [OutputEvent.bytesTo]
      split
      · rename_i refers
        have old := captured.targets _ (List.mem_of_getElem? refers)
        omega
      · rfl

theorem Captured.create (captured : Captured events t) (capacity : Nat) :
    Captured (events ++ [.create capacity]) (t.create capacity) where
  made := by
    have before := captured.made
    simp only [capacities] at before ⊢
    simp [before, OutputHandles.create, OutputEvent.capacity?]
  streams := by
    intro target b has
    have stream : written (t.create capacity).targets target (events ++ [.create capacity]) =
        written t.targets target events := by
      rw [← captured.written_append [t.buffers.length] target]
      simp [written, OutputEvent.bytesTo, OutputHandles.create]
    rw [stream]
    rcases Nat.lt_or_ge target t.buffers.length with old | new
    · rw [OutputHandles.create, List.getElem?_append_left old] at has
      exact captured.streams has
    · rw [OutputHandles.create, List.getElem?_append_right new] at has
      obtain ⟨first, rfl⟩ : target - t.buffers.length = 0 ∧ { capacity := capacity } = b := by
        simpa [List.getElem?_singleton] using has
      obtain rfl : target = t.buffers.length := by omega
      rw [captured.written_new]
      exact OutputBuffer.captures_new capacity
  targets := by
    intro target member
    rcases List.mem_append.mp member with old | new
    · have := captured.targets target old
      simp [OutputHandles.create]
      omega
    · simp at new
      simp [OutputHandles.create, new]
  handles := by
    intro handle bytes member
    have old : .write handle bytes ∈ events := by simpa using member
    have := captured.handles old
    simp [OutputHandles.create]
    omega

theorem Captured.refer {target : Nat} (captured : Captured events t) (there : target ∈ t.targets)
    (handle : Nat) : Captured (events ++ [.clone handle]) (t.refer target) where
  made := by
    show t.buffers.map OutputBuffer.capacity = _
    rw [captured.made]
    simp [capacities, OutputEvent.capacity?]
  streams := by
    intro place b has
    have stream : written (t.refer target).targets place (events ++ [.clone handle]) =
        written t.targets place events := by
      rw [← captured.written_append [target] place]
      simp [written, OutputEvent.bytesTo, OutputHandles.refer]
    rw [stream]
    exact captured.streams has
  targets := by
    intro place member
    rcases List.mem_append.mp member with old | new
    · exact captured.targets place old
    · rw [List.mem_singleton.mp new]
      exact captured.targets target there
  handles := by
    intro handle bytes member
    have old : .write handle bytes ∈ events := by simpa using member
    have := captured.handles old
    simp [OutputHandles.refer]
    omega

theorem map_capacity_write (t : OutputHandles) (target : Nat) (bytes : ByteArray) :
    (t.write target bytes).buffers.map OutputBuffer.capacity =
      t.buffers.map OutputBuffer.capacity := by
  apply List.ext_getElem?
  intro i
  simp only [write, List.getElem?_map, List.getElem?_modify]
  cases t.buffers[i]? with
  | none => rfl
  | some b => by_cases same : target = i <;> simp [same]

theorem Captured.write {handle target : Nat} (captured : Captured events t)
    (refers : t.targets[handle]? = some target) (bytes : ByteArray) :
    Captured (events ++ [.write handle bytes]) (t.write target bytes) where
  made := by
    rw [map_capacity_write, captured.made]
    simp [capacities, OutputEvent.capacity?]
  streams := by
    intro place b has
    have stream : written (t.write target bytes).targets place (events ++ [.write handle bytes]) =
        written t.targets place events ++ if target = place then bytes.data.toList else [] := by
      simp [written, OutputEvent.bytesTo, OutputHandles.write, refers]
    rw [stream]
    rw [OutputHandles.write, List.getElem?_modify] at has
    obtain ⟨old, had, rfl⟩ := Option.map_eq_some_iff.mp has
    split
    · exact (captured.streams had).write bytes
    · simpa using captured.streams had
  targets := by simpa [OutputHandles.write] using captured.targets
  handles := by
    intro place bytes member
    rcases List.mem_append.mp member with old | new
    · exact captured.handles old
    · cases List.mem_singleton.mp new
      exact (List.getElem?_eq_some_iff.mp refers).1

theorem Captured.step (captured : Captured events t) (happens : Happens t e t') :
    Captured (events ++ [e]) t' := by
  cases happens with
  | created capacity => exact captured.create capacity
  | cloned refers => exact captured.refer (List.mem_of_getElem? refers) _
  | wrote refers bytes => exact captured.write refers bytes

theorem Captured.run (captured : Captured earlier t) (ran : t.run? later = some t') :
    Captured (earlier ++ later) t' := by
  induction later generalizing earlier t with
  | nil =>
      cases ran
      simpa using captured
  | cons e rest ih =>
      obtain ⟨next, happens, ran⟩ := run_cons_cases ran
      simpa using ih (captured.step happens) ran

theorem Captured.reads {handle target : Nat} (captured : Captured events t)
    (refers : t.targets[handle]? = some target) :
    ∃ b, t.buffer? handle = some b ∧ (capacities events)[target]? = some b.capacity ∧
      b.Captures (written t.targets target events) := by
  have inside := captured.targets target (List.mem_of_getElem? refers)
  have has : t.buffers[target]? = some t.buffers[target] := List.getElem?_eq_getElem inside
  refine ⟨t.buffers[target], ?_, ?_, captured.streams has⟩
  · simp [buffer?, refers, has]
  · simp [← captured.made, has]

/-- Whatever handles are made and however they are written through, the buffer of a handle holds the
first bytes of the stream that went to it, as many as it has room for, and is truncated if the
stream was longer.  What is read through a handle is the same wherever the same stream went to a
buffer of the same capacity.  And what a buffer held after some of the events is the beginning of
what it holds after all of them. -/
theorem output_depends_on_stream {handle target : Nat}
    (ran : ({} : OutputHandles).run? events = some t) (refers : t.targets[handle]? = some target) :
    ∃ b, t.buffer? handle = some b ∧
      (capacities events)[target]? = some b.capacity ∧
      b.bytes.data.toList = (written t.targets target events).take b.capacity ∧
      b.size ≤ b.capacity ∧
      (b.truncated = true ↔ b.capacity < (written t.targets target events).length) ∧
      (∀ {events' : List OutputEvent} {t' : OutputHandles} {handle' target' : Nat},
        ({} : OutputHandles).run? events' = some t' → t'.targets[handle']? = some target' →
        (capacities events')[target']? = some b.capacity →
        written t'.targets target' events' = written t.targets target events →
        t'.contents? handle' = t.contents? handle) ∧
      ∀ {earlier later : List OutputEvent} {s : OutputHandles} {old : OutputBuffer},
        events = earlier ++ later → ({} : OutputHandles).run? earlier = some s →
        s.buffer? handle = some old → old.bytes.data.toList <+: b.bytes.data.toList := by
  have captured : Captured events t := captured_start.run ran
  obtain ⟨b, reads, capacity, captures⟩ := captured.reads refers
  refine ⟨b, reads, capacity, captures.bytes, ?_, captures.truncated, ?_, ?_⟩
  · rw [captures.size]
    exact Nat.min_le_left _ _
  · intro events' t' handle' target' ran' refers' capacity' stream
    obtain ⟨b', reads', capacity'', captures'⟩ := (captured_start.run ran').reads refers'
    have same : b'.capacity = b.capacity := by
      apply Option.some.inj
      rw [← capacity', ← capacity'']
      rfl
    have contents := captures.contents_eq (stream ▸ captures') same
    simp [contents?, reads, reads', contents]
  · intro earlier later s old split ran' was
    subst split
    obtain ⟨s', first, rest⟩ := run_append_cases ran
    obtain rfl : s' = s := by
      rw [ran'] at first
      exact (Option.some.inj first).symm
    obtain ⟨b', reads', begins⟩ := (run_grows rest).buffer was
    rw [reads] at reads'
    exact Option.some.inj reads' ▸ begins

/-- A buffer for four bytes that is filled through a handle and its clone, by writes of which one
fills it, one is empty and one goes beyond, reads like one that got the same bytes in one write. -/
theorem output_depends_on_stream_overfull :
    ∃ t t' b,
      ({} : OutputHandles).run? [.create 4, .clone 0, .write 0 ⟨#[1, 2]⟩, .write 1 ⟨#[3, 4]⟩,
        .write 1 ⟨#[]⟩, .write 0 ⟨#[5]⟩] = some t ∧
      ({} : OutputHandles).run? [.create 9, .create 4, .write 1 ⟨#[1, 2, 3, 4, 5]⟩] = some t' ∧
      t.buffer? 1 = some b ∧ b.bytes.data.toList = [1, 2, 3, 4] ∧ b.truncated = true ∧
      t'.contents? 1 = t.contents? 1 := by
  refine ⟨_, _, _, rfl, rfl, rfl, ?_⟩
  obtain ⟨b, reads, _, bytes, _, truncated, same, _⟩ :=
    @output_depends_on_stream _ [.create 4, .clone 0, .write 0 ⟨#[1, 2]⟩, .write 1 ⟨#[3, 4]⟩,
      .write 1 ⟨#[]⟩, .write 0 ⟨#[5]⟩] 1 0 rfl rfl
  cases reads
  refine ⟨bytes, truncated.mpr (by decide), ?_⟩
  exact @same [.create 9, .create 4, .write 1 ⟨#[1, 2, 3, 4, 5]⟩] _ 1 1 rfl rfl rfl rfl

end OutputHandles

end SandboxedGo
