import Mathlib.Logic.Function.Basic
import Mathlib.Data.List.Range
import Mathlib.Data.List.Nodup
import Mathlib.Algebra.GroupWithZero.Nat

/-!
# Live outputs of the audio pipeline

A pipeline's stages publish meter values into one flat frame. The audio task that writes the frame
and the reader that labels its slots assign the slots on their own, both from the configuration:
`AudioPipeline.writeOutputs` and `OutputLayout.derive`. `Agrees` says what they share and
`meter_slots` that they share it for every configuration.
-/

namespace Rumble.Audio

/-! ## Stages -/

/-- `MAX_OUTPUTS` -/
def maxOutputs : Nat := 16

/-- `OutputSpec`; `κ` is the kind of display. -/
structure OutputSpec (κ : Type) where
  key : String
  title : String
  kind : κ

/-- `dyn AudioProcessor`, as far as outputs go: `writeOutputs` is the list of its `sink.set` calls
with values in `F`. -/
class AudioProcessor (P : Type) (F : outParam Type) where
  isEnabled : P → Bool
  setEnabled : P → Bool → P
  writeOutputs : P → List (String × F)

/-- `dyn ProcessorFactory`; `σ` is the type of settings. -/
structure ProcessorFactory (P κ σ : Type) where
  createFromConfig : σ → Except String P
  outputs : List (OutputSpec κ)

structure ProcessorConfig (σ : Type) where
  typeId : String
  enabled : Bool
  settings : σ

structure PipelineConfig (σ : Type) where
  processors : List (ProcessorConfig σ)
  frameSize : Nat

/-- `ProcessorRegistry`: the factories by type id. -/
structure ProcessorRegistry (P κ σ : Type) where
  factories : String → Option (ProcessorFactory P κ σ)

section

variable {P F κ σ : Type} [AudioProcessor P F]

namespace ProcessorRegistry

/-- `ProcessorRegistry::create` -/
def create (r : ProcessorRegistry P κ σ) (config : ProcessorConfig σ) : Except String P :=
  match r.factories config.typeId with
  | none => .error ("Unknown processor type: " ++ config.typeId)
  | some factory =>
    match factory.createFromConfig config.settings with
    | .error e => .error e
    | .ok processor => .ok (AudioProcessor.setEnabled processor config.enabled)

/-- `ProcessorRegistry::outputs` -/
def outputs (r : ProcessorRegistry P κ σ) (typeId : String) : List (OutputSpec κ) :=
  ((r.factories typeId).map (·.outputs)).getD []

end ProcessorRegistry

/-- `AudioPipeline` -/
structure AudioPipeline (P κ : Type) where
  processors : List P
  outputSpecs : List (List (OutputSpec κ))
  frameSize : Nat

/-- The loop of `from_config`. -/
def createAll (r : ProcessorRegistry P κ σ) :
    List (ProcessorConfig σ) → Except String (List P × List (List (OutputSpec κ)))
  | [] => .ok ([], [])
  | config :: configs =>
    match r.create config with
    | .error e => .error e
    | .ok processor =>
      match createAll r configs with
      | .error e => .error e
      | .ok (processors, specs) => .ok (processor :: processors, r.outputs config.typeId :: specs)

/-- `AudioPipeline::from_config` -/
def AudioPipeline.fromConfig (config : PipelineConfig σ) (r : ProcessorRegistry P κ σ) :
    Except String (AudioPipeline P κ) :=
  match createAll r config.processors with
  | .error e => .error e
  | .ok (processors, outputSpecs) => .ok ⟨processors, outputSpecs, config.frameSize⟩

/-- A pipeline keeps one list of specs for each processor, as the registry has it. -/
theorem createAll_specs {r : ProcessorRegistry P κ σ} {configs : List (ProcessorConfig σ)}
    {processors : List P} {specs : List (List (OutputSpec κ))}
    (h : createAll r configs = .ok (processors, specs)) :
    specs = configs.map (fun c => r.outputs c.typeId) ∧ processors.length = configs.length := by
  induction configs generalizing processors specs with
  | nil =>
    obtain ⟨rfl, rfl⟩ := Prod.mk.inj (Except.ok.inj h)
    exact ⟨rfl, rfl⟩
  | cons config configs ih =>
    unfold createAll at h
    split at h
    · exact nomatch h
    · split at h
      · exact nomatch h
      · rename_i heq
        obtain ⟨rfl, rfl⟩ := Prod.mk.inj (Except.ok.inj h)
        obtain ⟨hspecs, hlength⟩ := ih heq
        exact ⟨by rw [hspecs]; rfl, congrArg Nat.succ hlength⟩

/-! ## The frame -/

/-- `OutputFrame` -/
structure OutputFrame (F : Type) where
  values : Vector F maxOutputs
  len : Nat

/-- `OutputFrame::get` -/
def OutputFrame.get (frame : OutputFrame F) (slot : Nat) : Option F :=
  if slot < frame.len then frame.values[slot]? else none

/-- `OutputSink`: a stage's specs and its window of the frame. -/
structure OutputSink (F κ : Type) where
  specs : List (OutputSpec κ)
  slots : List F

/-- `OutputSink::set` -/
def OutputSink.set (sink : OutputSink F κ) (key : String) (value : F) : OutputSink F κ :=
  match sink.specs.findIdx? (·.key == key) with
  | some i => { sink with slots := sink.slots.set i value }
  | none => sink

/-- The calls that a stage makes, one after the other. -/
def OutputSink.setAll (sink : OutputSink F κ) (calls : List (String × F)) : OutputSink F κ :=
  calls.foldl (fun sink call => sink.set call.1 call.2) sink

/-- The values with the window that starts at `offset` written. -/
def splice (values : Vector F maxOutputs) (offset : Nat) (slots : List F) : Vector F maxOutputs :=
  Vector.ofFn fun i => if offset ≤ i.val then (slots[i.val - offset]?).getD values[i] else values[i]

/-- What the loop of `write_outputs` leaves: the stages that it has not written, the next slot and
the values. -/
structure Written (P F κ : Type) where
  rest : List (P × List (OutputSpec κ))
  offset : Nat
  values : Vector F maxOutputs

section

variable [Zero F]

/-- The loop of `AudioPipeline::write_outputs`. -/
def writeLoop : List (P × List (OutputSpec κ)) → Nat → Vector F maxOutputs → Written P F κ
  | [], offset, values => ⟨[], offset, values⟩
  | (processor, specs) :: stages, offset, values =>
    if specs.isEmpty then writeLoop stages offset values
    else if maxOutputs < offset + specs.length then ⟨(processor, specs) :: stages, offset, values⟩
    else
      let zeroed : OutputSink F κ := ⟨specs, List.replicate specs.length 0⟩
      let sink := if AudioProcessor.isEnabled processor then
          zeroed.setAll (AudioProcessor.writeOutputs processor)
        else zeroed
      writeLoop stages (offset + specs.length) (splice values offset sink.slots)

/-- `AudioPipeline::write_outputs`, the stages left out beside the frame. -/
def AudioPipeline.written (p : AudioPipeline P κ) (frame : OutputFrame F) : Written P F κ :=
  writeLoop (p.processors.zip p.outputSpecs) 0 frame.values

/-- `AudioPipeline::write_outputs` -/
def AudioPipeline.writeOutputs (p : AudioPipeline P κ) (frame : OutputFrame F) : OutputFrame F :=
  let w := p.written frame
  -- the cast to `u8`
  ⟨w.values, w.offset % 256⟩

end

/-! ## The layout -/

structure OutputEntry (κ : Type) where
  procIndex : Nat
  typeId : String
  slot : Nat
  spec : OutputSpec κ

structure OutputLayout (κ : Type) where
  entries : List (OutputEntry κ)
  truncated : Bool

/-- The entries of one stage. -/
def stageEntries (procIndex : Nat) (typeId : String) (offset : Nat) (specs : List (OutputSpec κ)) :
    List (OutputEntry κ) :=
  specs.zipIdx.map fun (spec, i) => ⟨procIndex, typeId, offset + i, spec⟩

/-- The loop of `OutputLayout::derive`. -/
def deriveLoop (r : ProcessorRegistry P κ σ) :
    List (ProcessorConfig σ × Nat) → Nat → List (OutputEntry κ) → OutputLayout κ
  | [], _, entries => ⟨entries, false⟩
  | (pc, procIndex) :: configs, offset, entries =>
    let specs := r.outputs pc.typeId
    if specs.isEmpty then deriveLoop r configs offset entries
    else if maxOutputs < offset + specs.length then ⟨entries, true⟩
    else
      deriveLoop r configs (offset + specs.length)
        (entries ++ stageEntries procIndex pc.typeId offset specs)

/-- `OutputLayout::derive` -/
def OutputLayout.derive (config : PipelineConfig σ) (r : ProcessorRegistry P κ σ) :
    OutputLayout κ :=
  deriveLoop r config.processors.zipIdx 0 []

/-! ## A stage's window -/

/-- The last value that a list of calls gives to a key. -/
def lastCall (calls : List (String × F)) (key : String) : Option F :=
  calls.foldl (fun last call => if call.1 == key then some call.2 else last) none

theorem lastCall_concat (calls : List (String × F)) (call : String × F) (key : String) :
    lastCall (calls ++ [call]) key = if call.1 == key then some call.2 else lastCall calls key := by
  simp [lastCall]

theorem OutputSink.setAll_concat (sink : OutputSink F κ) (calls : List (String × F))
    (call : String × F) :
    sink.setAll (calls ++ [call]) = (sink.setAll calls).set call.1 call.2 := by
  simp [setAll]

/-- A call writes in place. -/
theorem OutputSink.set_shape (sink : OutputSink F κ) (key : String) (value : F) :
    (sink.set key value).specs = sink.specs ∧
      (sink.set key value).slots.length = sink.slots.length := by
  unfold set
  split
  · exact ⟨rfl, List.length_set⟩
  · exact ⟨rfl, rfl⟩

/-- A key's slot is the one that a call with it writes, when the keys are distinct. -/
theorem OutputSink.set_slot {sink : OutputSink F κ} (distinct : (sink.specs.map (·.key)).Nodup)
    (hlength : sink.slots.length = sink.specs.length) {i : Nat} {spec : OutputSpec κ}
    (hspec : sink.specs[i]? = some spec) (key : String) (value : F) :
    (sink.set key value).slots[i]? =
      if key == spec.key then some value else sink.slots[i]? := by
  have hi : i < sink.specs.length := (List.getElem?_eq_some_iff.mp hspec).1
  have hget : sink.specs[i] = spec := (List.getElem?_eq_some_iff.mp hspec).2
  unfold set
  split
  case h_1 j hj =>
    obtain ⟨hlt, hkey, _⟩ := List.findIdx?_eq_some_iff_getElem.mp hj
    have hkey : sink.specs[j].key = key := by simpa using hkey
    by_cases h : key = spec.key
    · have hji : j = i := by
        refine (List.getElem?_inj (by simpa using hlt) distinct).mp ?_
        simp [hlt, hi, hkey, hget, h]
      subst hji
      simp [h, hlength, hi]
    · have hji : j ≠ i := by
        rintro rfl
        exact h (by rw [← hkey, hget])
      simp [h, List.getElem?_set_ne hji]
  case h_2 hnone =>
    have hkey : spec.key ≠ key := by
      have := List.findIdx?_eq_none_iff.mp hnone spec (List.mem_of_getElem? hspec)
      simpa using this
    simp [hkey.symm]

/-- After a stage's calls the slot of each spec holds the last value given to its key, and what it
held before when there is none. -/
theorem OutputSink.setAll_slot {sink : OutputSink F κ} (distinct : (sink.specs.map (·.key)).Nodup)
    (hlength : sink.slots.length = sink.specs.length) {i : Nat} {spec : OutputSpec κ} {before : F}
    (hspec : sink.specs[i]? = some spec) (hbefore : sink.slots[i]? = some before)
    (calls : List (String × F)) :
    (sink.setAll calls).specs = sink.specs ∧
      (sink.setAll calls).slots.length = sink.slots.length ∧
      (sink.setAll calls).slots[i]? = some ((lastCall calls spec.key).getD before) := by
  induction calls using List.reverseRecOn with
  | nil => exact ⟨rfl, rfl, hbefore⟩
  | append_singleton calls call ih =>
    obtain ⟨hspecs, hslots, hvalue⟩ := ih
    obtain ⟨hspecs', hslots'⟩ := (sink.setAll calls).set_shape call.1 call.2
    rw [setAll_concat]
    refine ⟨hspecs'.trans hspecs, hslots'.trans hslots, ?_⟩
    rw [set_slot (by rwa [hspecs]) (by rw [hslots, hspecs, hlength]) (by rwa [hspecs]),
      lastCall_concat]
    split
    · rfl
    · exact hvalue

theorem OutputSink.setAll_length (sink : OutputSink F κ) (calls : List (String × F)) :
    (sink.setAll calls).slots.length = sink.slots.length := by
  induction calls using List.reverseRecOn with
  | nil => rfl
  | append_singleton calls call ih => rw [setAll_concat, (set_shape _ _ _).2, ih]

/-- Inside the window the frame has the window's values. -/
theorem splice_inside (values : Vector F maxOutputs) {offset i : Nat} {slots : List F} {x : F}
    (hx : slots[i]? = some x) (hfit : offset + slots.length ≤ maxOutputs) :
    (splice values offset slots)[offset + i]? = some x := by
  have hi : i < slots.length := (List.getElem?_eq_some_iff.mp hx).1
  have hlt : offset + i < maxOutputs := by omega
  rw [Vector.getElem?_eq_getElem hlt]
  simp [splice, hx]

/-- Before the window the frame is as it was. -/
theorem splice_before (values : Vector F maxOutputs) {offset i : Nat} {slots : List F}
    (hi : i < offset) : (splice values offset slots)[i]? = values[i]? := by
  by_cases hlt : i < maxOutputs
  · rw [Vector.getElem?_eq_getElem hlt, Vector.getElem?_eq_getElem hlt]
    simp [splice, Nat.not_le.mpr hi]
  · rw [Vector.getElem?_eq_none (by omega), Vector.getElem?_eq_none (by omega)]

/-! ## Writer and reader -/

section

variable [Zero F]

/-- What a stage shows under a key: the last value it gave to the key, 0 when there is none or the
stage is disabled. -/
def shown (processor : P) (key : String) : F :=
  if AudioProcessor.isEnabled processor then
    (lastCall (AudioProcessor.writeOutputs processor) key).getD 0
  else 0

/-- The window that a stage fills. -/
def stageSink (processor : P) (specs : List (OutputSpec κ)) : OutputSink F κ :=
  let zeroed : OutputSink F κ := ⟨specs, List.replicate specs.length 0⟩
  if AudioProcessor.isEnabled processor then zeroed.setAll (AudioProcessor.writeOutputs processor)
  else zeroed

theorem stageSink_length (processor : P) (specs : List (OutputSpec κ)) :
    (stageSink processor specs).slots.length = specs.length := by
  unfold stageSink
  split
  · rw [OutputSink.setAll_length]
    exact List.length_replicate
  · exact List.length_replicate

theorem stageSink_slot (processor : P) {specs : List (OutputSpec κ)}
    (distinct : (specs.map (·.key)).Nodup) {i : Nat} {spec : OutputSpec κ}
    (hspec : specs[i]? = some spec) :
    (stageSink processor specs).slots[i]? = some (shown processor spec.key) := by
  have hi : i < specs.length := (List.getElem?_eq_some_iff.mp hspec).1
  have hzero : (List.replicate specs.length (0 : F))[i]? = some 0 := by simp [hi]
  unfold stageSink shown
  split
  · exact (OutputSink.setAll_slot distinct List.length_replicate hspec hzero _).2.2
  · exact hzero

/-- What the loops of the writer and of the reader share over the stages from `offset` on. -/
structure Agrees (r : ProcessorRegistry P κ σ) (stages : List (P × ProcessorConfig σ))
    (k offset : Nat) (values : Vector F maxOutputs) (w : Written P F κ) (d : OutputLayout κ) :
    Prop where
  next : w.offset = offset + d.entries.length
  bound : w.offset ≤ maxOutputs
  slots : d.entries.map (·.slot) = List.range' offset d.entries.length
  kept : ∀ i < offset, w.values[i]? = values[i]?
  read : ∀ e ∈ d.entries, ∃ stage, (stage, e.procIndex) ∈ stages.zipIdx k ∧
    e.typeId = stage.2.typeId ∧ e.spec ∈ r.outputs stage.2.typeId ∧
    w.values[e.slot]? = some (shown stage.1 e.spec.key)
  truncated : d.truncated = true ↔ ∃ stage ∈ w.rest, stage.2 ≠ []

/-- The reader pushes the entries of later stages behind those it has. -/
theorem deriveLoop_entries (r : ProcessorRegistry P κ σ) (configs : List (ProcessorConfig σ × Nat))
    (offset : Nat) (entries : List (OutputEntry κ)) :
    deriveLoop r configs offset entries =
      { entries := entries ++ (deriveLoop r configs offset []).entries,
        truncated := (deriveLoop r configs offset []).truncated } := by
  induction configs generalizing offset entries with
  | nil => simp [deriveLoop]
  | cons config configs ih =>
    simp only [deriveLoop]
    split
    · exact ih offset entries
    · split
      · simp
      · rw [ih, ih _ ([] ++ _)]
        simp

theorem stageEntries_slots (procIndex : Nat) (typeId : String) (offset : Nat)
    (specs : List (OutputSpec κ)) :
    (stageEntries procIndex typeId offset specs).map (·.slot) =
      List.range' offset specs.length := by
  have hindices : specs.zipIdx.map Prod.snd = List.range' 0 specs.length :=
    List.zipIdx_map_snd 0 specs
  unfold stageEntries
  rw [List.map_map, List.range'_eq_map_range, List.range_eq_range', ← hindices, List.map_map]
  rfl

theorem mem_stageEntries {procIndex : Nat} {typeId : String} {offset : Nat}
    {specs : List (OutputSpec κ)} {e : OutputEntry κ}
    (h : e ∈ stageEntries procIndex typeId offset specs) :
    e.procIndex = procIndex ∧ e.typeId = typeId ∧
      ∃ i, e.slot = offset + i ∧ specs[i]? = some e.spec := by
  obtain ⟨⟨spec, i⟩, hmem, rfl⟩ := List.mem_map.mp h
  exact ⟨rfl, rfl, i, rfl, List.mem_zipIdx_iff_getElem?.mp hmem⟩

/-- A stage whose window fits goes before the stages that agree behind it. -/
theorem Agrees.prepend {r : ProcessorRegistry P κ σ} {stages : List (P × ProcessorConfig σ)}
    {k offset : Nat} {values : Vector F maxOutputs} {processor : P} {config : ProcessorConfig σ}
    {w : Written P F κ} {d : OutputLayout κ}
    (h : Agrees r stages (k + 1) (offset + (r.outputs config.typeId).length)
      (splice values offset (stageSink processor (r.outputs config.typeId)).slots) w d)
    (distinct : ((r.outputs config.typeId).map (·.key)).Nodup)
    (hfit : offset + (r.outputs config.typeId).length ≤ maxOutputs) :
    Agrees r ((processor, config) :: stages) k offset values w
      ⟨stageEntries k config.typeId offset (r.outputs config.typeId) ++ d.entries,
        d.truncated⟩ := by
  have hlength := stageSink_length (F := F) processor (r.outputs config.typeId)
  have hcount : (stageEntries k config.typeId offset (r.outputs config.typeId)).length =
      (r.outputs config.typeId).length := by
    simp [stageEntries]
  refine ⟨?_, h.bound, ?_, fun i hi => ?_, fun e he => ?_, h.truncated⟩
  · rw [h.next, List.length_append, hcount]
    omega
  · rw [List.map_append, stageEntries_slots, h.slots, List.length_append, hcount]
    exact List.range'_append_1
  · rw [h.kept i (by omega), splice_before values hi]
  · rcases List.mem_append.mp he with he | he
    · obtain ⟨hindex, htype, i, hslot, hspec⟩ := mem_stageEntries he
      have hi : i < (r.outputs config.typeId).length := (List.getElem?_eq_some_iff.mp hspec).1
      refine ⟨(processor, config), ?_, htype, List.mem_of_getElem? hspec, ?_⟩
      · rw [hindex]
        exact List.mem_cons_self
      · rw [hslot, h.kept _ (by omega)]
        exact splice_inside values (stageSink_slot processor distinct hspec) (by omega)
    · obtain ⟨stage, hmem, hrest⟩ := h.read e he
      exact ⟨stage, List.mem_cons_of_mem _ hmem, hrest⟩

/-- **Lock-step.** The two loops take the same branch at every stage. -/
theorem loops_agree (r : ProcessorRegistry P κ σ) (stages : List (P × ProcessorConfig σ))
    (distinct : ∀ stage ∈ stages, ((r.outputs stage.2.typeId).map (·.key)).Nodup)
    (k offset : Nat) (values : Vector F maxOutputs) (hoffset : offset ≤ maxOutputs) :
    Agrees r stages k offset values
      (writeLoop (stages.map fun stage => (stage.1, r.outputs stage.2.typeId)) offset values)
      (deriveLoop r ((stages.map (·.2)).zipIdx k) offset []) := by
  induction stages generalizing k offset values with
  | nil =>
    refine ⟨rfl, hoffset, rfl, fun _ _ => rfl, (fun _ h => nomatch h), ?_⟩
    exact ⟨fun h => (nomatch h), fun ⟨_, h, _⟩ => (nomatch h)⟩
  | cons stage stages ih =>
    have later := fun k offset values h =>
      ih (fun s hs => distinct s (List.mem_cons_of_mem _ hs)) k offset values h
    obtain ⟨processor, config⟩ := stage
    simp only [List.map_cons, List.zipIdx_cons, writeLoop, deriveLoop]
    by_cases hempty : (r.outputs config.typeId).isEmpty = true
    · -- a stage without outputs takes no slot on either side
      rw [if_pos hempty, if_pos hempty]
      have h := later (k + 1) offset values hoffset
      refine { h with read := fun e he => ?_ }
      obtain ⟨stage, hmem, hrest⟩ := h.read e he
      exact ⟨stage, List.mem_cons_of_mem _ hmem, hrest⟩
    · rw [if_neg hempty, if_neg hempty]
      by_cases hfull : maxOutputs < offset + (r.outputs config.typeId).length
      · rw [if_pos hfull, if_pos hfull]
        refine ⟨rfl, hoffset, rfl, fun _ _ => rfl, (fun _ h => nomatch h), fun _ => ?_,
          fun _ => rfl⟩
        exact ⟨_, List.mem_cons_self, fun h => hempty (List.isEmpty_iff.mpr h)⟩
      · rw [if_neg hfull, if_neg hfull, deriveLoop_entries]
        have hfit : offset + (r.outputs config.typeId).length ≤ maxOutputs := Nat.not_lt.mp hfull
        have h := later (k + 1) (offset + (r.outputs config.typeId).length)
          (splice values offset (stageSink processor (r.outputs config.typeId)).slots) hfit
        exact h.prepend (distinct _ List.mem_cons_self) hfit

/-- Processing, resetting and toggling change a pipeline's processors where they stand. -/
structure AudioPipeline.Later (p p' : AudioPipeline P κ) : Prop where
  outputSpecs : p'.outputSpecs = p.outputSpecs
  length : p'.processors.length = p.processors.length

theorem AudioPipeline.Later.refl (p : AudioPipeline P κ) : p.Later p := ⟨rfl, rfl⟩

/-- **Writer and reader agree.** A frame that is written by a pipeline built from a configuration,
in whatever state its processors are by then, is labelled right by the layout that is derived from
the same configuration: one entry for each slot of the frame, each slot holding what the entry's own
stage shows under the entry's key. The layout is truncated exactly when the writer leaves out the
outputs of some stage. -/
theorem meter_slots {config : PipelineConfig σ} {r : ProcessorRegistry P κ σ}
    {built p : AudioPipeline P κ} (hbuilt : AudioPipeline.fromConfig config r = .ok built)
    (later : built.Later p)
    (distinct : ∀ pc ∈ config.processors, ((r.outputs pc.typeId).map (·.key)).Nodup)
    (frame : OutputFrame F) :
    (p.writeOutputs frame).len = (OutputLayout.derive config r).entries.length ∧
    (∀ e ∈ (OutputLayout.derive config r).entries, e.slot < (p.writeOutputs frame).len) ∧
    ((OutputLayout.derive config r).entries.map (·.slot)).Nodup ∧
    (∀ e ∈ (OutputLayout.derive config r).entries, ∃ processor pc,
      p.processors[e.procIndex]? = some processor ∧
      config.processors[e.procIndex]? = some pc ∧
      e.typeId = pc.typeId ∧ e.spec ∈ r.outputs pc.typeId ∧
      (p.writeOutputs frame).get e.slot = some (shown processor e.spec.key)) ∧
    ((OutputLayout.derive config r).truncated = true ↔
      ∃ stage ∈ (p.written frame).rest, stage.2 ≠ []) := by
  obtain ⟨hspecs, hlength⟩ : p.outputSpecs = config.processors.map (fun c => r.outputs c.typeId) ∧
      p.processors.length = config.processors.length := by
    unfold AudioPipeline.fromConfig at hbuilt
    split at hbuilt
    · exact nomatch hbuilt
    · rename_i heq
      cases Except.ok.inj hbuilt
      obtain ⟨hspecs, hlength⟩ := createAll_specs heq
      exact ⟨later.outputSpecs.trans hspecs, later.length.trans hlength⟩
  -- the writer's and the reader's lists are two views of the same stages
  have hwriter : p.processors.zip p.outputSpecs = (p.processors.zip config.processors).map
      fun stage => (stage.1, r.outputs stage.2.typeId) := by
    rw [hspecs, List.zip_map_right]
    rfl
  have hreader : config.processors = (p.processors.zip config.processors).map (·.2) :=
    (List.map_snd_zip (Nat.le_of_eq hlength.symm)).symm
  have agrees := loops_agree r (p.processors.zip config.processors)
    (fun stage hstage => distinct _ (List.of_mem_zip hstage).2) 0 0 frame.values (Nat.zero_le _)
  rw [← hwriter, ← hreader] at agrees
  have hlen : (p.writeOutputs frame).len = (OutputLayout.derive config r).entries.length := by
    refine (Nat.mod_eq_of_lt (Nat.lt_of_le_of_lt agrees.bound (by decide))).trans ?_
    exact agrees.next.trans (Nat.zero_add _)
  have hslot : ∀ e ∈ (OutputLayout.derive config r).entries,
      e.slot < (p.writeOutputs frame).len := by
    intro e he
    have := List.mem_map_of_mem (f := (·.slot)) he
    rw [OutputLayout.derive, agrees.slots, List.mem_range'_1] at this
    rw [Nat.zero_add] at this
    exact hlen.symm ▸ this.2
  refine ⟨hlen, hslot, ?_, fun e he => ?_, agrees.truncated⟩
  · rw [OutputLayout.derive, agrees.slots]
    exact List.nodup_range'
  · obtain ⟨stage, hmem, htype, hspec, hvalue⟩ := agrees.read e he
    have hstage := List.mk_mem_zipIdx_iff_getElem?.mp hmem
    obtain ⟨hprocessor, hpc⟩ := List.getElem?_zip_eq_some.mp hstage
    refine ⟨stage.1, stage.2, hprocessor, hpc, htype, hspec, ?_⟩
    unfold OutputFrame.get
    rw [if_pos (hslot e he)]
    exact hvalue

end

end

/-! ## A counting stage -/

/-- `CountingProcessor`: gives each of its keys the key's position. -/
structure Counting where
  keys : List String
  enabled : Bool

instance : AudioProcessor Counting Nat where
  isEnabled p := p.enabled
  setEnabled p enabled := { p with enabled }
  writeOutputs p := p.keys.zipIdx 1

/-- A registry with one type of stage, which has two outputs. -/
def countingRegistry : ProcessorRegistry Counting Unit Unit where
  factories
    | "two" => some ⟨fun _ => .ok ⟨["a", "b"], true⟩, [⟨"a", "a", ()⟩, ⟨"b", "b", ()⟩]⟩
    | _ => none

/-- The type twice, the first of the stages disabled. -/
def countingConfig : PipelineConfig Unit := ⟨[⟨"two", false, ()⟩, ⟨"two", true, ()⟩], 960⟩

def countingPipeline : AudioPipeline Counting Unit :=
  ⟨[⟨["a", "b"], false⟩, ⟨["a", "b"], true⟩],
    List.replicate 2 (countingRegistry.outputs "two"), 960⟩

theorem meter_slots_counting :
    AudioPipeline.fromConfig countingConfig countingRegistry = .ok countingPipeline ∧
    (countingPipeline.writeOutputs ⟨Vector.replicate 16 9, 0⟩).len = 4 := by
  have hbuilt : AudioPipeline.fromConfig countingConfig countingRegistry = .ok countingPipeline :=
    rfl
  refine ⟨hbuilt, (meter_slots hbuilt (AudioPipeline.Later.refl _) ?_ _).1.trans rfl⟩
  intro pc hpc
  have htwo : pc.typeId = "two" := by
    rcases List.mem_cons.mp hpc with rfl | hpc
    · rfl
    · exact congrArg ProcessorConfig.typeId (List.mem_singleton.mp hpc)
  rw [htwo]
  decide

end Rumble.Audio
