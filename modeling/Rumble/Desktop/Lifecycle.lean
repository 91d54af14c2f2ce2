import Rumble.Desktop.Transfers

/-!
# The life of a transfer

A transfer has one task, reaches one terminal stage and announces it once, and a room change leaves
no upload of the room left behind. `lifecycle_run` proves so over every run in which a call starts
a transfer under an id that is not in use, and an upload is not entered under a room that was left
in the meantime. `EditAt` says what a piece of work can do to an entry; everything else is read off
it.
-/

namespace Rumble.Desktop

open Rumble.Lib Rumble.Lib.Transition

/-! ## The property and its condition -/

/-- The task of the transfer `id`. -/
def Task.runs (id : String) : Task → Bool
  | .upload _ i .. | .fetch _ i _ | .cleaning _ i _ => i == id
  | _ => false

/-- A `share` that has drawn `id`. -/
def Task.drew (id : String) : Task → Bool
  | .sharing i .. | .tagged i .. => i == id
  | _ => false

def PluginEvent.ends (id : String) : PluginEvent → Bool
  | .stageChanged i _ _ stage => i == id && stage.isTerminal
  | .notification .. => false

/-- The terminal stages announced for a transfer. -/
def TransferWorld.terminalEvents (w : TransferWorld) (id : String) : Nat :=
  w.events.countP (PluginEvent.ends id)

structure Lifecycle (p : Pool TransferWorld Task) : Prop where
  oneTask : ∀ id, p.tasks.countP (Task.runs id) ≤ 1
  onceEnded : ∀ id entry, p.shared.transfers.get id = some entry →
    p.shared.terminalEvents id ≤ 1 ∧
      (p.tasks.countP (Task.runs id) = 0 → p.shared.terminalEvents id = 1)
  inRoom : ∀ id entry, p.shared.transfers.get id = some entry → entry.uploading = true →
    ∀ room ∈ entry.roomId, room = p.shared.roomId ∨ Task.leaving room ∈ p.tasks

/-- A terminal stage stays over a move. -/
def Sticky (cfg : TransferConfig) (p : Pool TransferWorld Task)
    (m : TransferEnv × Pick TransferCall) : Prop :=
  ∀ id entry, p.shared.transfers.get id = some entry → entry.stage.isTerminal = true →
    ∃ entry', ((transferProgram cfg).step p m).shared.transfers.get id = some entry' ∧
      entry'.stage = entry.stage

/-- No entry has the id, and no `share` under way has drawn it. -/
def Unused (p : Pool TransferWorld Task) (id : String) : Prop :=
  p.shared.transfers.get id = none ∧ ∀ t ∈ p.tasks, t.drew id = false

instance (p : Pool TransferWorld Task) (id : String) : Decidable (Unused p id) :=
  inferInstanceAs (Decidable (_ ∧ _))

/-- A new transfer has an unused id, and an upload is entered under the current room, or under one
whose uploads are still to be cancelled. -/
def Fresh (p : Pool TransferWorld Task) (m : TransferEnv × Pick TransferCall) : Prop :=
  match m.2 with
  | .start (.share _) => Unused p m.1.newId
  | .start (.download (some share)) => Unused p share.transferId
  | .start _ => True
  | .resume i =>
    match p.tasks[i]? with
    | some (.tagged _ _ _ _ _ room) =>
      room = "" ∨ room = p.shared.roomId ∨ Task.leaving room ∈ p.tasks
    | _ => True

/-! ## What a piece does to an entry -/

/-- The entry of `id` is absent, keeps its stage, makes progress, or ends and says so. -/
inductive EditAt (w w' : TransferWorld) (id : String) : Prop where
  | absent (h : w.transfers.get id = none) (h' : w'.transfers.get id = none)
      (hev : w'.terminalEvents id = w.terminalEvents id)
  | keeps (e e' : TransferEntry) (h : w.transfers.get id = some e)
      (h' : w'.transfers.get id = some e') (hid : e'.id = e.id)
      (hdirection : e'.direction = e.direction) (hroom : e'.roomId = e.roomId)
      (hstage : e'.stage = e.stage ∨ e.stage.isTerminal = false ∧ e'.stage.isTerminal = false)
      (hev : w'.terminalEvents id = w.terminalEvents id)
  | ends (e e' : TransferEntry) (h : w.transfers.get id = some e)
      (h' : w'.transfers.get id = some e') (hid : e'.id = e.id)
      (hopen : e.stage.isTerminal = false) (hend : e'.stage.isTerminal = true)
      (hev : w'.terminalEvents id = w.terminalEvents id + 1)

/-- The same for every entry; the room stays. -/
structure Edits (w w' : TransferWorld) : Prop where
  entries : ∀ id, EditAt w w' id
  room : w'.roomId = w.roomId

/-- Every entry is under its own id. -/
def Keyed (w : TransferWorld) : Prop := ∀ id e, w.transfers.get id = some e → e.id = id

section Edits

variable {w w' w'' : TransferWorld} {id : String}

theorem Edits.of_eq (ht : w'.transfers = w.transfers)
    (hev : ∀ id, w'.terminalEvents id = w.terminalEvents id) (hroom : w'.roomId = w.roomId) :
    Edits w w' := by
  refine ⟨fun id => ?_, hroom⟩
  cases h : w.transfers.get id with
  | none => exact .absent h (ht ▸ h) (hev id)
  | some e => exact .keeps e e h (ht ▸ h) rfl rfl rfl (.inl rfl) (hev id)

theorem Edits.refl (w : TransferWorld) : Edits w w := .of_eq rfl (fun _ => rfl) rfl

theorem EditAt.trans (h₁ : EditAt w w' id) (h₂ : EditAt w' w'' id) : EditAt w w'' id := by
  cases h₁ with
  | absent h h' hev =>
    cases h₂ with
    | absent _ h'' hev' => exact .absent h h'' (hev'.trans hev)
    | keeps e e' k => exact absurd (h'.symm.trans k) (Option.some_ne_none e).symm
    | ends e e' k => exact absurd (h'.symm.trans k) (Option.some_ne_none e).symm
  | keeps e e₁ h h' hid hdirection hroom hstage hev =>
    cases h₂ with
    | absent k => exact absurd (k.symm.trans h') (Option.some_ne_none e₁).symm
    | keeps e₂ e' k k' hid' hdirection' hroom' hstage' hev' =>
      obtain rfl : e₁ = e₂ := Option.some.inj (h'.symm.trans k)
      refine .keeps e e' h k' (hid'.trans hid) (hdirection'.trans hdirection)
        (hroom'.trans hroom) ?_ (hev'.trans hev)
      rcases hstage with hstage | ⟨hopen, hopen₁⟩
      · rwa [← hstage]
      · rcases hstage' with hstage' | ⟨-, hopen'⟩
        · exact .inr ⟨hopen, hstage' ▸ hopen₁⟩
        · exact .inr ⟨hopen, hopen'⟩
    | ends e₂ e' k k' hid' hopen hend hev' =>
      obtain rfl : e₁ = e₂ := Option.some.inj (h'.symm.trans k)
      have hopen₁ : e.stage.isTerminal = false := by
        rcases hstage with hstage | ⟨hopen', -⟩
        · rwa [← hstage]
        · exact hopen'
      exact .ends e e' h k' (hid'.trans hid) hopen₁ hend (by rw [hev', hev])
  | ends e e₁ h h' hid hopen hend hev =>
    cases h₂ with
    | absent k => exact absurd (k.symm.trans h') (Option.some_ne_none e₁).symm
    | keeps e₂ e' k k' hid' _ _ hstage' hev' =>
      obtain rfl : e₁ = e₂ := Option.some.inj (h'.symm.trans k)
      rcases hstage' with hstage' | ⟨hopen', -⟩
      · exact .ends e e' h k' (hid'.trans hid) hopen (hstage' ▸ hend) (by rw [hev', hev])
      · exact absurd (hopen'.symm.trans hend) Bool.false_ne_true
    | ends e₂ e' k _ _ hopen' =>
      obtain rfl : e₁ = e₂ := Option.some.inj (h'.symm.trans k)
      exact absurd (hopen'.symm.trans hend) Bool.false_ne_true

theorem Edits.trans (h₁ : Edits w w') (h₂ : Edits w' w'') : Edits w w'' :=
  ⟨fun id => (h₁.entries id).trans (h₂.entries id), h₂.room.trans h₁.room⟩

theorem EditAt.key (h : EditAt w w' id) (hw : ∀ e, w.transfers.get id = some e → e.id = id)
    {e' : TransferEntry} (he' : w'.transfers.get id = some e') : e'.id = id := by
  cases h with
  | absent _ h' => exact absurd (h'.symm.trans he') (Option.some_ne_none e').symm
  | keeps e e₁ h h' hid =>
    obtain rfl : e₁ = e' := Option.some.inj (h'.symm.trans he')
    exact hid.trans (hw e h)
  | ends e e₁ h h' hid =>
    obtain rfl : e₁ = e' := Option.some.inj (h'.symm.trans he')
    exact hid.trans (hw e h)

/-- An upload under way was under way before, in the same room. -/
theorem EditAt.uploading (h : EditAt w w' id) {e' : TransferEntry}
    (he' : w'.transfers.get id = some e') (hup : e'.uploading = true) :
    ∃ e, w.transfers.get id = some e ∧ e.uploading = true ∧ e'.roomId = e.roomId := by
  simp only [TransferEntry.uploading, Bool.and_eq_true, beq_iff_eq, Bool.not_eq_true'] at hup
  cases h with
  | absent _ h' => exact absurd (h'.symm.trans he') (Option.some_ne_none e').symm
  | keeps e e₁ h h' hid hdirection hroom hstage =>
    obtain rfl : e₁ = e' := Option.some.inj (h'.symm.trans he')
    refine ⟨e, h, ?_, hroom⟩
    have hopen : e.stage.isTerminal = false := by
      rcases hstage with hstage | ⟨hopen, -⟩
      · exact hstage ▸ hup.2
      · exact hopen
    simp [TransferEntry.uploading, ← hdirection, hup.1, hopen]
  | ends e e₁ h h' hid hopen hend =>
    obtain rfl : e₁ = e' := Option.some.inj (h'.symm.trans he')
    exact absurd (hup.2.symm.trans hend) Bool.false_ne_true

/-- A terminal stage stays. -/
theorem EditAt.terminal (h : EditAt w w' id) {e : TransferEntry} (he : w.transfers.get id = some e)
    (hend : e.stage.isTerminal = true) :
    ∃ e', w'.transfers.get id = some e' ∧ e'.stage = e.stage := by
  cases h with
  | absent k => exact absurd (k.symm.trans he) (Option.some_ne_none e).symm
  | keeps e₁ e' k h' _ _ _ hstage =>
    obtain rfl : e₁ = e := Option.some.inj (k.symm.trans he)
    rcases hstage with hstage | ⟨hopen, -⟩
    · exact ⟨e', h', hstage⟩
    · exact absurd (hopen.symm.trans hend) Bool.false_ne_true
  | ends e₁ e' k _ _ hopen =>
    obtain rfl : e₁ = e := Option.some.inj (k.symm.trans he)
    exact absurd (hopen.symm.trans hend) Bool.false_ne_true

end Edits

/-! ## The pieces -/

section Pieces

variable {w : TransferWorld} {id : String}

theorem terminalEvents_emit (e : PluginEvent) (id : String) :
    (w.emit e).terminalEvents id = w.terminalEvents id + if e.ends id then 1 else 0 := by
  rw [TransferWorld.terminalEvents, TransferWorld.emit, List.countP_append, List.countP_singleton]
  rfl

theorem edits_notify (level : NotificationLevel) (text : String) :
    Edits w (w.emit (.notification level text)) :=
  .of_eq rfl (fun id => by rw [terminalEvents_emit]; rfl) rfl

theorem edits_notifyFailure (what : String) (task : Nat) (reason : String) :
    Edits w (w.notifyFailure what task reason) := by
  unfold TransferWorld.notifyFailure
  split
  · exact .refl w
  · exact edits_notify _ _

theorem edits_cancelToken (cancelled : List Nat) : Edits w { w with cancelled := cancelled } :=
  .of_eq rfl (fun _ => rfl) rfl

/-- Write an entry that says the same but for its stage, and announce it. -/
theorem edits_setStage {e entry : TransferEntry} {stage : TransferStage}
    (h : w.transfers.get id = some e) (hkey : e.id = id) (hid : entry.id = e.id)
    (hopen : e.stage.isTerminal = false) (hend : stage.isTerminal = true) :
    Edits w (w.setStage id entry stage) := by
  refine ⟨fun k => ?_, rfl⟩
  have hev : (w.setStage id entry stage).terminalEvents k = w.terminalEvents k +
      if (PluginEvent.stageChanged entry.id entry.direction entry.name stage).ends k then 1 else 0 :=
    terminalEvents_emit _ k
  by_cases hk : k = id
  · subst hk
    refine .ends e { entry with stage := stage } h (Table.get_set_self _ _ _) hid hopen hend ?_
    rw [hev, if_pos (by simp [PluginEvent.ends, hid, hkey, hend])]
  · have hev' : (w.setStage id entry stage).terminalEvents k = w.terminalEvents k := by
      rw [hev, if_neg (by simp [PluginEvent.ends, hid, hkey, Ne.symm hk])]
      rfl
    have hget : (w.setStage id entry stage).transfers.get k = w.transfers.get k :=
      Table.get_set_ne hk
    cases hget' : w.transfers.get k with
    | none => exact .absent hget' (hget.trans hget') hev'
    | some e' => exact .keeps e' e' hget' (hget.trans hget') rfl rfl rfl (.inl rfl) hev'

/-- Write an entry whose stage is as terminal as before, and announce nothing. -/
theorem edits_set {e entry : TransferEntry} (h : w.transfers.get id = some e)
    (hid : entry.id = e.id) (hdirection : entry.direction = e.direction)
    (hroom : entry.roomId = e.roomId)
    (hstage : entry.stage = e.stage ∨ e.stage.isTerminal = false ∧ entry.stage.isTerminal = false) :
    Edits w { w with transfers := w.transfers.set id entry } := by
  refine ⟨fun k => ?_, rfl⟩
  by_cases hk : k = id
  · subst hk
    exact .keeps e entry h (Table.get_set_self _ _ _) hid hdirection hroom hstage rfl
  · have hget : (w.transfers.set id entry).get k = w.transfers.get k := Table.get_set_ne hk
    cases hget' : w.transfers.get k with
    | none => exact .absent hget' (hget.trans hget') rfl
    | some e' => exact .keeps e' e' hget' (hget.trans hget') rfl rfl rfl (.inl rfl) rfl

theorem edits_updateActiveProgress (bytes : Nat) : Edits w (w.updateActiveProgress id bytes) := by
  unfold TransferWorld.updateActiveProgress
  split
  · rename_i entry hget
    split
    · rename_i hstage
      refine edits_set hget rfl rfl rfl (.inr ⟨?_, rfl⟩)
      rw [hstage]
      rfl
    · exact .refl w
  · exact .refl w

theorem edits_recordDest (name : String) (size : Nat) (dest : String) :
    Edits w (w.recordDest id name size dest) := by
  unfold TransferWorld.recordDest
  split
  · rename_i entry hget
    exact edits_set hget rfl rfl rfl (.inl rfl)
  · exact .refl w

/-- No stage of `id` is still open. -/
def Closed (w : TransferWorld) (id : String) : Prop :=
  ∀ e, w.transfers.get id = some e → e.stage.isTerminal = true

theorem EditAt.closed {w' : TransferWorld} (h : EditAt w w' id) (hw : Closed w id) :
    Closed w' id := by
  intro e' he'
  cases h with
  | absent _ h' => exact absurd (h'.symm.trans he') (Option.some_ne_none e').symm
  | keeps e e₁ h h' _ _ _ hstage =>
    obtain rfl : e₁ = e' := Option.some.inj (h'.symm.trans he')
    rcases hstage with hstage | ⟨hopen, -⟩
    · exact hstage ▸ hw e h
    · exact absurd (hopen.symm.trans (hw e h)) Bool.false_ne_true
  | ends e e₁ h h' hid hopen hend =>
    obtain rfl : e₁ = e' := Option.some.inj (h'.symm.trans he')
    exact hend

theorem closed_setStage {entry : TransferEntry} {stage : TransferStage}
    (hend : stage.isTerminal = true) : Closed (w.setStage id entry stage) id := by
  intro e he
  have hget : (w.setStage id entry stage).transfers.get id = some { entry with stage := stage } :=
    Table.get_set_self _ _ _
  obtain rfl := Option.some.inj (hget.symm.trans he)
  exact hend

theorem closed_of_none (hget : w.transfers.get id = none) : Closed w id :=
  fun e he => absurd (hget.symm.trans he) (Option.some_ne_none e).symm

theorem closed_of_terminal {entry : TransferEntry} (hget : w.transfers.get id = some entry)
    (hend : entry.stage.isTerminal = true) : Closed w id := by
  intro e he
  obtain rfl := Option.some.inj (hget.symm.trans he)
  exact hend

/-- An entry that is still open is closed, with one announcement. -/
theorem settled_setStage (hw : Keyed w) {entry : TransferEntry} {stage : TransferStage}
    (hget : w.transfers.get id = some entry) (hopen : ¬ entry.stage.isTerminal = true)
    (hend : stage.isTerminal = true) :
    Edits w (w.setStage id entry stage) ∧ Closed (w.setStage id entry stage) id :=
  ⟨edits_setStage hget (hw id entry hget) rfl (Bool.eq_false_iff.mpr hopen) hend,
    closed_setStage hend⟩

theorem settled_notifyFailure {w' : TransferWorld} (h : Edits w w' ∧ Closed w' id) (what : String)
    (task : Nat) (reason : String) : Edits w (w'.notifyFailure what task reason) ∧
      Closed (w'.notifyFailure what task reason) id := by
  have hnotice : Edits w' (w'.notifyFailure what task reason) := edits_notifyFailure what task reason
  exact ⟨h.1.trans hnotice, (hnotice.entries id).closed h.2⟩

theorem settleUpload_spec (hw : Keyed w) (task : Nat) (path : String)
    (result : Except String Unit) :
    Edits w (w.settleUpload task id path result) ∧
      Closed (w.settleUpload task id path result) id := by
  unfold TransferWorld.settleUpload
  split
  · rename_i hget
    exact ⟨.refl w, closed_of_none hget⟩
  rename_i entry hget
  split
  · rename_i hend
    exact ⟨.refl w, closed_of_terminal hget hend⟩
  rename_i hopen
  split
  · exact settled_setStage hw hget hopen rfl
  · exact settled_notifyFailure (settled_setStage hw hget hopen rfl) _ _ _

theorem settleFetch_spec (hw : Keyed w) (task : Nat) (result : Except String String) :
    (Edits w (w.settleFetch task id result).1 ∧ Closed (w.settleFetch task id result).1 id) ∧
      ∀ t ∈ (w.settleFetch task id result).2, ∃ path, t = .cleaning task id path := by
  have hclean : ∀ path, ∀ t ∈ TransferWorld.clean task id path, ∃ path, t = .cleaning task id path := by
    intro path t ht
    obtain ⟨p, -, rfl⟩ := Option.map_eq_some_iff.mp ht
    exact ⟨p, rfl⟩
  have hnone : ∀ t ∈ (none : Option Task), ∃ path, t = .cleaning task id path :=
    fun t ht => absurd ht (Option.not_mem_none t)
  unfold TransferWorld.settleFetch
  split
  · rename_i hget
    exact ⟨⟨.refl w, closed_of_none hget⟩, hnone⟩
  rename_i entry hget
  split
  · rename_i hend
    have hclosed : Closed w id := closed_of_terminal hget hend
    split
    · refine ⟨⟨.refl w, hclosed⟩, ?_⟩
      dsimp only
      split
      · exact hclean _
      · exact hnone
    · exact ⟨⟨.refl w, hclosed⟩, hclean _⟩
  rename_i hopen
  split
  · split
    · exact ⟨settled_setStage hw hget hopen rfl, hclean (some _)⟩
    · exact ⟨settled_setStage hw hget hopen rfl, hnone⟩
  · exact ⟨settled_notifyFailure (settled_setStage hw hget hopen rfl) _ _ _, hclean _⟩

end Pieces

/-! ## The invariant -/

/-- The entry, the announcements and the tasks of one id. -/
def OrderedAt (w : TransferWorld) (id : String) (runs drew : Nat) : Prop :=
  match w.transfers.get id with
  | none => runs = 0 ∧ drew ≤ 1 ∧ w.terminalEvents id = 0
  | some e => runs ≤ 1 ∧ drew = 0 ∧
    w.terminalEvents id = (if e.stage.isTerminal then 1 else 0) ∧
      (e.stage.isTerminal = false → runs = 1)

structure Ordered (w : TransferWorld) (tasks : List Task) : Prop where
  keyed : Keyed w
  ids : ∀ id, OrderedAt w id (tasks.countP (Task.runs id)) (tasks.countP (Task.drew id))
  inRoom : ∀ id entry, w.transfers.get id = some entry → entry.uploading = true →
    ∀ room ∈ entry.roomId, room = w.roomId ∨ Task.leaving room ∈ tasks
  tidied : ∀ task id path, Task.cleaning task id path ∈ tasks → Closed w id

/-- A piece that enters no transfer: the task it resumes, the world after it and what is left of
the task. A task that is gone has closed its entry, and `leaving` leaves no upload behind. -/
structure Piece (w : TransferWorld) (before : Option Task) (next : TransferWorld × Option Task) :
    Prop where
  edits : Edits w next.1
  runs : ∀ id, next.2.toList.countP (Task.runs id) ≤ before.toList.countP (Task.runs id)
  closed : ∀ id, next.2.toList.countP (Task.runs id) < before.toList.countP (Task.runs id) →
    Closed next.1 id
  drew : ∀ id, next.2.toList.countP (Task.drew id) ≤ before.toList.countP (Task.drew id)
  left : ∀ r, before = some (.leaving r) → ∀ id e, next.1.transfers.get id = some e →
    e.uploading = true → e.roomId ≠ some r
  tidied : ∀ task id path, next.2 = some (.cleaning task id path) → Closed next.1 id

/-- A piece that enters a transfer under an id that had none. `before` may have drawn the id. -/
structure Enters (w : TransferWorld) (before : Option Task) (next : TransferWorld × Option Task)
    (id : String) (e : TransferEntry) : Prop where
  new : w.transfers.get id = none
  entry : next.1.transfers.get id = some e
  key : e.id = id
  events : next.1.terminalEvents id =
    w.terminalEvents id + (if e.stage.isTerminal then 1 else 0)
  others : ∀ k, k ≠ id → EditAt w next.1 k
  room : next.1.roomId = w.roomId
  idle : ∀ k, before.toList.countP (Task.runs k) = 0
  task : ∀ k, next.2.toList.countP (Task.runs k) =
    if k = id then if e.stage.isTerminal then 0 else 1 else 0
  drew : ∀ k, next.2.toList.countP (Task.drew k) = 0
  drawn : before.toList.countP (Task.drew id) = 1 ∨ before = none
  stays : ∀ r, before ≠ some (.leaving r)
  tidied : ∀ task id path, next.2 ≠ some (.cleaning task id path)

/-- The account of an id over an edit: a task that is gone has closed its entry. -/
theorem OrderedAt.edit {w w' : TransferWorld} {id : String} {r r' n n' : Nat}
    (h : OrderedAt w id r n) (he : EditAt w w' id) (hr : r' ≤ r) (hn : n' ≤ n)
    (hclosed : r' < r → Closed w' id) : OrderedAt w' id r' n' := by
  unfold OrderedAt at h ⊢
  cases he with
  | absent hget hget' hev =>
    rw [hget] at h
    rw [hget', hev]
    dsimp only at h ⊢
    omega
  | keeps e e' hget hget' _ _ _ hstage hev =>
    rw [hget] at h
    rw [hget', hev]
    have hsame : e'.stage.isTerminal = e.stage.isTerminal := by
      rcases hstage with hstage | ⟨hopen, hopen'⟩
      · rw [hstage]
      · rw [hopen, hopen']
    dsimp only at h ⊢
    rw [hsame]
    refine ⟨by omega, by omega, h.2.2.1, fun hopen => ?_⟩
    have hrun := h.2.2.2 hopen
    by_contra hne
    have hend := hclosed (by omega) e' hget'
    rw [hsame, hopen] at hend
    exact Bool.false_ne_true hend
  | ends e e' hget hget' _ hopen hend hev =>
    rw [hget] at h
    rw [hget', hev]
    dsimp only at h ⊢
    rw [hopen] at h
    rw [hend]
    refine ⟨by omega, by omega, ?_, fun hopen' => absurd hopen'.symm Bool.false_ne_true⟩
    have hzero := h.2.2.1
    simpa using hzero

/-- The invariant after a move, and what the move did to the entries that were there. -/
structure Advances (w w' : TransferWorld) (tasks' : List Task) : Prop where
  ordered : Ordered w' tasks'
  edited : ∀ id, w.transfers.get id = none ∨ EditAt w w' id

namespace Ordered

variable {w : TransferWorld} {tasks others : List Task} {next : TransferWorld × Option Task}
  {id : String} {e : TransferEntry}

theorem perm {tasks' : List Task} (h : Ordered w tasks) (hp : tasks.Perm tasks') :
    Ordered w tasks' := by
  refine ⟨h.keyed, fun id => ?_, fun id entry hget hup room hroom => ?_,
    fun task id path ht => h.tidied task id path (hp.mem_iff.mpr ht)⟩
  · rw [← hp.countP_eq, ← hp.countP_eq]
    exact h.ids id
  · exact (h.inRoom id entry hget hup room hroom).imp_right hp.mem_iff.mp

theorem piece (before : Option Task) (h : Ordered w (before.toList ++ others))
    (hp : Piece w before next) : Advances w next.1 (next.2.toList ++ others) := by
  refine ⟨⟨fun id e he => (hp.edits.entries id).key (h.keyed id) he, fun id => ?_,
    fun id entry hget hup room hroom => ?_, fun task id path ht => ?_⟩,
    fun id => .inr (hp.edits.entries id)⟩
  · have hat := h.ids id
    have hruns := hp.runs id
    have hdrew := hp.drew id
    rw [List.countP_append, List.countP_append] at hat ⊢
    exact hat.edit (hp.edits.entries id) (by omega) (by omega) fun hlt => hp.closed id (by omega)
  · obtain ⟨e, hget₀, hup₀, hsame⟩ := (hp.edits.entries id).uploading hget hup
    rcases h.inRoom id e hget₀ hup₀ room (hsame ▸ hroom) with hcur | hleaving
    · exact .inl (hcur.trans hp.edits.room.symm)
    · rcases List.mem_append.mp hleaving with hbefore | hothers
      · exact absurd hroom (hp.left room (Option.mem_toList.mp hbefore) id entry hget hup)
      · exact .inr (List.mem_append_right _ hothers)
  · rcases List.mem_append.mp ht with hnext | hothers
    · exact hp.tidied task id path (Option.mem_toList.mp hnext)
    · exact (hp.edits.entries id).closed (h.tidied task id path (List.mem_append_right _ hothers))

/-- A new transfer, under the current room or one whose uploads are to be cancelled. -/
theorem enters (before : Option Task) (h : Ordered w (before.toList ++ others))
    (he : Enters w before next id e)
    (hdrew : before = none → others.countP (Task.drew id) = 0)
    (hroom : e.uploading = true → ∀ room ∈ e.roomId, room = w.roomId ∨ .leaving room ∈ others) :
    Advances w next.1 (next.2.toList ++ others) := by
  refine ⟨⟨fun k f hf => ?_, fun k => ?_, fun k f hf hup room hmem => ?_,
    fun task k path ht => ?_⟩, fun k => ?_⟩
  · by_cases hk : k = id
    · subst hk
      obtain rfl := Option.some.inj (he.entry.symm.trans hf)
      exact he.key
    · exact (he.others k hk).key (h.keyed k) hf
  · have hat := h.ids k
    have hidle := he.idle k
    have htask := he.task k
    have hleft := he.drew k
    rw [List.countP_append, List.countP_append] at hat ⊢
    by_cases hk : k = id
    · subst hk
      unfold OrderedAt at hat ⊢
      rw [he.new] at hat
      rw [he.entry, he.events]
      rw [if_pos rfl] at htask
      dsimp only at hat ⊢
      have hnone : others.countP (Task.drew k) = 0 := by
        rcases he.drawn with hdrawn | hnone
        · omega
        · exact hdrew hnone
      refine ⟨?_, by omega, by omega, fun hopen => ?_⟩
      · split at htask
        · omega
        · omega
      · rw [hopen] at htask
        simp only [Bool.false_eq_true, if_false] at htask
        omega
    · rw [if_neg hk] at htask
      exact hat.edit (he.others k hk) (by omega) (by omega) fun hlt => absurd hlt (by omega)
  · have hin : room = w.roomId ∨ Task.leaving room ∈ others := by
      by_cases hk : k = id
      · subst hk
        obtain rfl := Option.some.inj (he.entry.symm.trans hf)
        exact hroom hup room hmem
      · obtain ⟨f₀, hf₀, hup₀, hsame⟩ := (he.others k hk).uploading hf hup
        refine (h.inRoom k f₀ hf₀ hup₀ room (hsame ▸ hmem)).imp_right fun hleaving => ?_
        rcases List.mem_append.mp hleaving with hbefore | hothers
        · exact absurd (Option.mem_toList.mp hbefore) (he.stays room)
        · exact hothers
    exact hin.imp (fun h => h.trans he.room.symm) (List.mem_append_right _)
  · rcases List.mem_append.mp ht with hnext | hothers
    · exact absurd (Option.mem_toList.mp hnext) (he.tidied task k path)
    · by_cases hk : k = id
      · -- the id has no entry, so none of its tasks is under way
        subst hk
        have hat := h.ids k
        have hpos : 0 < others.countP (Task.runs k) :=
          List.countP_pos_iff.mpr ⟨_, hothers, by simp [Task.runs]⟩
        unfold OrderedAt at hat
        rw [he.new, List.countP_append] at hat
        dsimp only at hat
        omega
      · exact (he.others k hk).closed (h.tidied task k path (List.mem_append_right _ hothers))
  · by_cases hk : k = id
    · exact .inl (hk ▸ he.new)
    · exact .inr (he.others k hk)

end Ordered

/-! ## Each piece of a task -/

section Tasks

variable {w : TransferWorld} {id : String}

/-- A task that goes on. -/
theorem Piece.goesOn {w' : TransferWorld} {t t' : Task} (hedits : Edits w w')
    (hruns : ∀ id, t'.runs id = t.runs id) (hdrew : ∀ id, t'.drew id = t.drew id)
    (hleaving : ∀ r, t ≠ .leaving r)
    (htidied : ∀ task id path, t' ≠ .cleaning task id path) :
    Piece w (some t) (w', some t') where
  edits := hedits
  runs id := by simp [hruns]
  closed id hlt := absurd hlt (by simp [hruns])
  drew id := by simp [hdrew]
  left r hr := absurd (Option.some.inj hr) (hleaving r)
  tidied task id path ht := absurd (Option.some.inj ht) (htidied task id path)

/-- A task that ends, and the clean-up it may leave. -/
theorem Piece.ends {next : TransferWorld × Option Task} {t : Task} {id : String}
    (hedits : Edits w next.1) (hclosed : Closed next.1 id)
    (hruns : ∀ k, t.runs k = (id == k)) (hleaving : ∀ r, t ≠ .leaving r)
    (hclean : ∀ t' ∈ next.2, ∃ task path, t' = .cleaning task id path) : Piece w (some t) next := by
  obtain ⟨w', left⟩ := next
  have hcount : ∀ k, left.toList.countP (Task.runs k) ≤ if (id == k) = true then 1 else 0 := by
    intro k
    cases left with
    | none => exact Nat.zero_le _
    | some t' =>
      obtain ⟨task, path, rfl⟩ := hclean t' rfl
      rw [Option.toList_some, List.countP_singleton]
      exact Nat.le_refl _
  refine ⟨hedits, fun k => ?_, fun k hlt => ?_, fun k => ?_, fun r hr => ?_, ?_⟩
  · rw [Option.toList_some, List.countP_singleton, hruns k]
    exact hcount k
  · rw [Option.toList_some, List.countP_singleton, hruns k] at hlt
    by_cases hk : id = k
    · exact hk ▸ hclosed
    · rw [if_neg (by simpa using hk)] at hlt
      exact absurd hlt (Nat.not_lt_zero _)
  · cases left with
    | none => exact Nat.zero_le _
    | some t' =>
      obtain ⟨task, path, rfl⟩ := hclean t' rfl
      exact Nat.zero_le _
  · exact absurd (Option.some.inj hr) (hleaving r)
  · intro task k path ht
    obtain ⟨task', path', heq⟩ := hclean _ ht
    cases heq
    exact hclosed

theorem piece_upload (hw : Keyed w) (outcome : Outcome) (task : Nat) (path : String)
    (size sent : Nat) : Piece w (some (.upload task id path size sent))
      (w.resumeUpload outcome task id path size sent) := by
  have hsettle : ∀ result, Piece w (some (.upload task id path size sent))
      (w.settleUpload task id path result, none) := fun result =>
    have h := settleUpload_spec hw task path result
    .ends h.1 h.2 (fun _ => rfl) (fun _ h => nomatch h) fun t ht => absurd ht (Option.not_mem_none t)
  have hstay : Piece w (some (.upload task id path size sent))
      (w, some (.upload task id path size sent)) :=
    .goesOn (.refl w) (fun _ => rfl) (fun _ => rfl) (fun _ h => nomatch h) fun _ _ _ h => nomatch h
  unfold TransferWorld.resumeUpload
  cases outcome with
  | chunk n =>
    exact .goesOn (edits_updateActiveProgress _) (fun _ => rfl) (fun _ => rfl)
      (fun _ h => nomatch h) fun _ _ _ h => nomatch h
  | finish => exact hsettle _
  | fail reason => exact hsettle _
  | cancelled =>
    dsimp only
    split
    · exact hsettle _
    · exact hstay
  | next => exact hstay
  | respond => exact hstay

theorem piece_fetch (hw : Keyed w) (outcome : Outcome) (task : Nat) (phase : FetchPhase) :
    Piece w (some (.fetch task id phase)) (w.resumeFetch outcome task id phase) := by
  have hsettle : ∀ result, Piece w (some (.fetch task id phase)) (w.settleFetch task id result) := by
    intro result
    obtain ⟨⟨hedits, hclosed⟩, hclean⟩ := settleFetch_spec hw task result
    exact .ends hedits hclosed (fun _ => rfl) (fun _ h => nomatch h) fun t ht =>
      ⟨task, hclean t ht⟩
  have hgoes : ∀ {w' : TransferWorld} (phase' : FetchPhase), Edits w w' →
      Piece w (some (.fetch task id phase)) (w', some (.fetch task id phase')) := fun _ h =>
    .goesOn h (fun _ => rfl) (fun _ => rfl) (fun _ h => nomatch h) fun _ _ _ h => nomatch h
  have hstay := hgoes phase (.refl w)
  have hinterrupt : ∀ next ∈ w.interruptFetch outcome task id phase,
      Piece w (some (.fetch task id phase)) next := by
    intro next hnext
    unfold TransferWorld.interruptFetch at hnext
    split at hnext
    · obtain rfl := Option.some.inj hnext
      exact hsettle _
    · split at hnext
      · obtain rfl := Option.some.inj hnext
        exact hsettle _
      · obtain rfl := Option.some.inj hnext
        exact hstay
    · exact absurd hnext (Option.not_mem_none next)
  have hgetD : ∀ {next}, Piece w (some (.fetch task id phase)) next →
      Piece w (some (.fetch task id phase))
        ((w.interruptFetch outcome task id phase).getD next) := by
    intro next hnext
    cases hi : w.interruptFetch outcome task id phase with
    | none => exact hnext
    | some next' => exact hinterrupt next' hi
  unfold TransferWorld.resumeFetch
  dsimp only
  cases phase with
  | requesting =>
    refine hgetD ?_
    split
    · split
      · exact hsettle _
      · exact hgoes _ (.refl w)
    · exact hstay
  | probing name size n =>
    dsimp only
    split
    · exact hgoes _ (.refl w)
    · split
      · exact hgoes _ (.refl w)
      · exact hgoes _ (.refl w)
  | chosen name size dest => exact hgoes _ (edits_recordDest _ _ _)
  | creating size dest =>
    refine hgetD ?_
    split
    · exact hgoes _ (.of_eq rfl (fun _ => rfl) rfl)
    · exact hstay
  | writing size dest received =>
    refine hgetD ?_
    split
    · split
      · exact hsettle _
      · exact hgoes _ (edits_updateActiveProgress _)
    · split
      · exact hsettle _
      · exact hsettle _
    · exact hstay

/-! ## Leaving a room -/

theorem cancelUpload_spec (room : String) {e : String × TransferEntry} (hw : Keyed w)
    (he : w.transfers.get e.1 = some e.2) :
    Edits w (w.cancelUpload room e) ∧
      (∀ k, k ≠ e.1 → (w.cancelUpload room e).transfers.get k = w.transfers.get k) ∧
      ∀ f, (w.cancelUpload room e).transfers.get e.1 = some f → f.uploading = true →
        f.roomId ≠ some room := by
  unfold TransferWorld.cancelUpload
  split
  · rename_i hup
    simp only [TransferEntry.uploading, Bool.and_eq_true, Bool.not_eq_true'] at hup
    refine ⟨?_, fun k hk => Table.get_set_ne hk, fun f hf hopen => ?_⟩
    · exact (edits_cancelToken _).trans
        (edits_setStage he (hw e.1 e.2 he) rfl hup.1.2 rfl)
    · have hget : (w.transfers.set e.1 { e.2 with stage := .failed "room changed" }).get e.1 =
          some { e.2 with stage := .failed "room changed" } := Table.get_set_self _ _ _
      obtain rfl := Option.some.inj (hget.symm.trans hf)
      simp [TransferEntry.uploading, TransferStage.isTerminal] at hopen
  · rename_i hup
    refine ⟨.refl w, fun _ _ => rfl, fun f hf hopen hroom => hup ?_⟩
    obtain rfl := Option.some.inj (he.symm.trans hf)
    simp [hopen, hroom]

/-- Entries that are still as they were are cancelled one by one. -/
theorem edits_cancelUploads (room : String) (pairs : List (String × TransferEntry))
    (hnodup : (pairs.map Prod.fst).Nodup) (hw : Keyed w)
    (hpairs : ∀ e ∈ pairs, w.transfers.get e.1 = some e.2) :
    Edits w (pairs.foldl (fun v e => v.cancelUpload room e) w) ∧
      ∀ e ∈ pairs, ∀ f, (pairs.foldl (fun v e => v.cancelUpload room e) w).transfers.get e.1 =
        some f → f.uploading = true → f.roomId ≠ some room := by
  induction pairs generalizing w with
  | nil => exact ⟨.refl w, fun _ he => nomatch he⟩
  | cons e pairs ih =>
    obtain ⟨hedits, hothers, hleft⟩ := cancelUpload_spec room hw (hpairs e List.mem_cons_self)
    obtain ⟨hfresh, hnodup⟩ := List.nodup_cons.mp hnodup
    have htail : ∀ e' ∈ pairs, (w.cancelUpload room e).transfers.get e'.1 = some e'.2 := by
      intro e' he'
      have hne : e'.1 ≠ e.1 := fun h => hfresh (List.mem_map.mpr ⟨e', he', h⟩)
      rw [hothers e'.1 hne]
      exact hpairs e' (List.mem_cons_of_mem e he')
    have hkeyed : Keyed (w.cancelUpload room e) := fun k f hf =>
      (hedits.entries k).key (hw k) hf
    obtain ⟨hedits', hleft'⟩ := ih hnodup hkeyed htail
    refine ⟨hedits.trans hedits', fun e' he' f hf hup => ?_⟩
    rcases List.mem_cons.mp he' with rfl | he'
    · obtain ⟨f₀, hf₀, hup₀, hsame⟩ := (hedits'.entries e'.1).uploading hf hup
      rw [hsame]
      exact hleft f₀ hf₀ hup₀
    · exact hleft' e' he' f hf hup

theorem piece_leaving (hw : Keyed w) (room : String) :
    Piece w (some (.leaving room)) (w.leaveRoom room, none) := by
  obtain ⟨hedits, hleft⟩ := edits_cancelUploads room w.transfers.toPairs w.transfers.nodup_keys hw
    fun e he => Table.mem_toPairs.mp he
  have hnotify : Edits (w.transfers.toPairs.foldl (fun v e => v.cancelUpload room e) w)
      (w.leaveRoom room) := by
    unfold TransferWorld.leaveRoom
    dsimp only
    split
    · exact .refl _
    · exact edits_notify _ _
  have hall : Edits w (w.leaveRoom room) := hedits.trans hnotify
  refine ⟨hall, fun _ => Nat.le_refl _, fun _ hlt => absurd hlt (Nat.lt_irrefl _),
    fun _ => Nat.le_refl _, fun r hr id e he hup hroom => ?_, fun _ _ _ h => nomatch h⟩
  cases hr
  obtain ⟨e₀, he₀, -, -⟩ := (hall.entries id).uploading he hup
  obtain ⟨e₁, he₁, hup₁, hsame⟩ := (hnotify.entries id).uploading he hup
  exact hleft (id, e₀) (Table.mem_toPairs.mpr he₀) e₁ he₁ hup₁ (hsame ▸ hroom)

end Tasks

/-! ## The calls -/

section Calls

variable {w : TransferWorld} {cfg : TransferConfig}

/-- A piece that only touches the entries. -/
theorem Piece.call {next : TransferWorld × Option Task} (h : Edits w next.1)
    (hruns : ∀ id, next.2.toList.countP (Task.runs id) = 0)
    (hdrew : ∀ id, next.2.toList.countP (Task.drew id) = 0)
    (htidied : ∀ task id path, next.2 ≠ some (.cleaning task id path)) : Piece w none next where
  edits := h
  runs id := Nat.le_of_eq (hruns id)
  closed id hlt := absurd hlt (by simp)
  drew id := Nat.le_of_eq (hdrew id)
  left r hr := nomatch hr
  tidied task id path ht := absurd ht (htidied task id path)

theorem piece_cancel (hw : Keyed w) (id : String) (deleteFiles : Bool) :
    Piece w none (w.startCancel id deleteFiles) := by
  have hnone : ∀ {w' : TransferWorld}, Edits w w' → Piece w none (w', none) := fun h =>
    .call h (fun _ => rfl) (fun _ => rfl) fun _ _ _ h => nomatch h
  unfold TransferWorld.startCancel
  split
  · exact hnone (.refl w)
  rename_i entry hget
  split
  · split
    · exact .call (.refl w) (fun _ => rfl) (fun _ => rfl) fun _ _ _ h => nomatch h
    · exact hnone (.refl w)
  · rename_i hopen
    refine hnone ((edits_cancelToken _).trans (edits_setStage hget (hw id entry hget) rfl ?_ rfl))
    simpa using hopen

/-- Insert an entry under an unused id. -/
theorem enters_insert {before left : Option Task} {e : TransferEntry} (n : Nat)
    (hnew : w.transfers.get e.id = none)
    (hidle : ∀ k, before.toList.countP (Task.runs k) = 0)
    (htask : ∀ k, left.toList.countP (Task.runs k) =
      if k = e.id then if e.stage.isTerminal then 0 else 1 else 0)
    (hdrew : ∀ k, left.toList.countP (Task.drew k) = 0)
    (hdrawn : before.toList.countP (Task.drew e.id) = 1 ∨ before = none)
    (hstays : ∀ r, before ≠ some (.leaving r))
    (htidied : ∀ task id path, left ≠ some (.cleaning task id path)) :
    Enters w before ({ w with nextTask := n }.insert e, left) e.id e where
  new := hnew
  entry := Table.get_set_self _ _ _
  key := rfl
  events := by
    refine (terminalEvents_emit _ _).trans ?_
    simp only [PluginEvent.ends, beq_self_eq_true, Bool.true_and]
    rfl
  others k hk := by
    have hev : ({ w with nextTask := n }.insert e).terminalEvents k = w.terminalEvents k := by
      refine (terminalEvents_emit _ _).trans ?_
      rw [if_neg (by simp [PluginEvent.ends, Ne.symm hk])]
      rfl
    have hget : ({ w with nextTask := n }.insert e).transfers.get k = w.transfers.get k :=
      Table.get_set_ne hk
    cases hget' : w.transfers.get k with
    | none => exact .absent hget' (hget.trans hget') hev
    | some f => exact .keeps f f hget' (hget.trans hget') rfl rfl rfl (.inl rfl) hev
  room := rfl
  idle := hidle
  task := htask
  drew := hdrew
  drawn := hdrawn
  stays := hstays
  tidied := htidied

end Calls

/-! ## One move -/

namespace Ordered

variable {w : TransferWorld} {tasks others : List Task} {id : String} {cfg : TransferConfig}

/-- `share` draws an unused id. -/
theorem draws {path name mime : String} {size : Nat} (h : Ordered w tasks)
    (hnew : w.transfers.get id = none) (hdrew : ∀ t ∈ tasks, t.drew id = false) :
    Advances w w (.sharing id path name mime size :: tasks) := by
  refine ⟨⟨h.keyed, fun k => ?_, fun k e he hup room hroom => ?_, fun task k p ht => ?_⟩,
    fun k => .inr ((Edits.refl w).entries k)⟩
  · have hat := h.ids k
    rw [List.countP_cons_of_neg (by simp [Task.runs]), List.countP_cons]
    by_cases hk : k = id
    · subst hk
      have hzero : tasks.countP (Task.drew k) = 0 :=
        List.countP_eq_zero.mpr fun t ht => by simp [hdrew t ht]
      unfold OrderedAt at hat ⊢
      rw [hnew] at hat ⊢
      rw [hzero, if_pos (by simp [Task.drew])]
      exact ⟨hat.1, Nat.le_refl _, hat.2.2⟩
    · rw [if_neg (by simp [Task.drew, Ne.symm hk])]
      exact hat
  · exact (h.inRoom k e he hup room hroom).imp_right (List.mem_cons_of_mem _)
  · rcases List.mem_cons.mp ht with heq | ht
    · exact nomatch heq
    · exact h.tidied task k p ht

/-- `set_room_id` stores the new room and goes on to the uploads of the old one. -/
theorem changesRoom (h : Ordered w tasks) (room : String) :
    Advances w (w.startSetRoomId room).1 ((w.startSetRoomId room).2.toList ++ tasks) := by
  have hedits : ∀ id, EditAt w (w.startSetRoomId room).1 id := fun id => by
    cases hget : w.transfers.get id with
    | none => exact .absent hget hget rfl
    | some e => exact .keeps e e hget hget rfl rfl rfl (.inl rfl) rfl
  refine ⟨?_, fun id => .inr (hedits id)⟩
  unfold TransferWorld.startSetRoomId
  by_cases hroom : w.roomId = room
  · rw [if_pos hroom]
    subst hroom
    exact h
  · rw [if_neg hroom]
    refine ⟨h.keyed, fun id => ?_, fun id e he hup r hr => .inr ?_, fun task id path ht => ?_⟩
    · rw [List.countP_append, List.countP_append]
      exact (h.ids id).edit (hedits id) (by simp [Task.runs]) (by simp [Task.drew])
        fun hlt => absurd hlt (by simp)
    · rcases h.inRoom id e he hup r hr with rfl | hleaving
      · exact List.mem_cons_self
      · exact List.mem_cons_of_mem _ hleaving
    · rcases List.mem_cons.mp ht with heq | ht
      · exact nomatch heq
      · exact h.tidied task id path ht

theorem share (h : Ordered w tasks) (env : TransferEnv) (path : String)
    (hnew : w.transfers.get env.newId = none) (hdrew : ∀ t ∈ tasks, t.drew env.newId = false) :
    Advances w (w.startShare cfg env path).1 ((w.startShare cfg env path).2.toList ++ tasks) := by
  have hquiet : ∀ {w' : TransferWorld}, Edits w w' → Advances w w' tasks := fun {w'} hedits =>
    have hpiece : Piece w none (w', none) :=
      .call hedits (fun _ => rfl) (fun _ => rfl) fun _ _ _ h => nomatch h
    piece none h hpiece
  unfold TransferWorld.startShare
  split
  · exact hquiet (.refl w)
  dsimp only
  split
  · refine enters none h (enters_insert _ hnew (fun _ => rfl) (fun k => ?_)
      (fun _ => rfl) (.inr rfl) (fun _ h => nomatch h) fun _ _ _ h => nomatch h)
      (fun _ => List.countP_eq_zero.mpr fun t ht => by simp [hdrew t ht]) fun hup => ?_
    · simp [TransferStage.isTerminal]
    · simp [TransferEntry.uploading, TransferStage.isTerminal] at hup
  split
  · split
    · exact hquiet (edits_notify _ _)
    · exact h.draws hnew hdrew
  · exact h.draws hnew hdrew

/-- The one task of a new transfer. -/
theorem countP_runs_new {t : Task} {e : TransferEntry} (ht : ∀ k, t.runs k = (e.id == k))
    (hopen : e.stage.isTerminal = false) (k : String) :
    (some t).toList.countP (Task.runs k) =
      if k = e.id then if e.stage.isTerminal then 0 else 1 else 0 := by
  rw [Option.toList_some, List.countP_singleton, ht, hopen]
  by_cases hk : k = e.id
  · simp [hk]
  · simp [hk, Ne.symm hk]

theorem download (h : Ordered w tasks) (share : RelayShareData)
    (hnew : w.transfers.get share.transferId = none)
    (hdrew : ∀ t ∈ tasks, t.drew share.transferId = false) :
    Advances w (w.startDownload share).1 ((w.startDownload share).2.toList ++ tasks) := by
  refine enters none h (enters_insert _ hnew (fun _ => rfl)
    (countP_runs_new (fun _ => rfl) rfl) (fun _ => rfl) (.inr rfl) (fun _ h => nomatch h)
    fun _ _ _ h => nomatch h)
    (fun _ => List.countP_eq_zero.mpr fun t ht => by simp [hdrew t ht]) fun hup => ?_
  simp [TransferEntry.uploading] at hup

variable {p : Pool TransferWorld Task} {m : TransferEnv × Pick TransferCall}

theorem start (h : Ordered p.shared p.tasks) {c : TransferCall} (hm : m.2 = .start c)
    (hc : Fresh p m) :
    Advances p.shared (p.shared.start cfg m.1 c).1
      ((p.shared.start cfg m.1 c).2.toList ++ p.tasks) := by
  have hfiles : ∀ files : Table String Owner,
      Advances p.shared { p.shared with files := files } p.tasks := fun files =>
    have hpiece : Piece p.shared none ({ p.shared with files := files }, none) :=
      .call (.of_eq rfl (fun _ => rfl) rfl) (fun _ => rfl) (fun _ => rfl) fun _ _ _ h => nomatch h
    piece none h hpiece
  simp only [Fresh, hm] at hc
  cases c with
  | share path => exact h.share m.1 path hc.1 hc.2
  | download share =>
    cases share with
    | none => exact hfiles p.shared.files
    | some share => exact h.download share hc.1 hc.2
  | cancel id deleteFiles => exact piece none h (piece_cancel h.keyed id deleteFiles)
  | setRoomId room => exact h.changesRoom room
  | putFile path => exact hfiles _
  | removeFile path => exact hfiles _

theorem resume {t : Task} (h : Ordered w (t :: others)) (env : TransferEnv)
    (hc : ∀ id path name mime size room, t = .tagged id path name mime size room →
      room = "" ∨ room = w.roomId ∨ Task.leaving room ∈ others) :
    Advances w (w.resume cfg env t).1 ((w.resume cfg env t).2.toList ++ others) := by
  cases t with
  | sharing id path name mime size =>
    exact piece (some _) h (.goesOn (.refl w) (fun _ => rfl) (fun _ => rfl)
      (fun _ h => nomatch h) fun _ _ _ h => nomatch h)
  | tagged id path name mime size room =>
    have hnew : w.transfers.get id = none := by
      have hat := h.ids id
      cases hget : w.transfers.get id with
      | none => rfl
      | some e =>
        unfold OrderedAt at hat
        rw [hget, List.countP_cons_of_pos (p := Task.drew id) (by simp [Task.drew])] at hat
        exact absurd hat.2.1 (Nat.succ_ne_zero _)
    refine enters (some _) h (enters_insert _ hnew (fun _ => rfl)
      (countP_runs_new (fun _ => rfl) rfl) (fun _ => rfl) (.inl ?_) (fun _ h => nomatch h)
      fun _ _ _ h => nomatch h) (fun h => nomatch h) fun _ r hr => ?_
    · simp [Task.drew]
    · dsimp only at hr
      split at hr
      · exact absurd hr (Option.not_mem_none r)
      · rename_i hne
        obtain rfl := Option.some.inj hr
        exact (hc id path name mime size room rfl).resolve_left hne
  | leaving room => exact piece (some _) h (piece_leaving h.keyed room)
  | upload task id path size sent =>
    exact piece (some _) h (piece_upload h.keyed _ _ _ _ _)
  | fetch task id phase => exact piece (some _) h (piece_fetch h.keyed _ _ _)
  | cleaning task id path =>
    have hclosed := h.tidied task id path List.mem_cons_self
    have hedits : Edits w (w.cleanFile task path) := .of_eq rfl (fun _ => rfl) rfl
    have hpiece : Piece w (some (.cleaning task id path)) (w.cleanFile task path, none) :=
      .ends hedits ((hedits.entries id).closed hclosed) (fun _ => rfl) (fun _ h => nomatch h)
        fun t ht => absurd ht (Option.not_mem_none t)
    exact piece (some _) h hpiece
  | deleting path =>
    have hedits : Edits w { w with files := w.files.del path } := .of_eq rfl (fun _ => rfl) rfl
    have hpiece : Piece w (some (.deleting path)) ({ w with files := w.files.del path }, none) :=
      ⟨hedits, fun _ => Nat.zero_le _, fun _ hlt => absurd hlt (by simp [Task.runs]),
        fun _ => Nat.zero_le _, (fun _ h => nomatch h), (fun _ _ _ h => nomatch h)⟩
    exact piece (some _) h hpiece

/-- **One move** that meets the condition. -/
theorem step (h : Ordered p.shared p.tasks) (hc : Fresh p m) :
    Advances p.shared ((transferProgram cfg).step p m).shared
      ((transferProgram cfg).step p m).tasks := by
  rcases (transferProgram cfg).step_cases p m with
    heq | ⟨c, hm, hs, ht⟩ | ⟨i, t, others, hm, hi, hp, hs, ht⟩
  · rw [heq]
    exact ⟨h, fun id => .inr ((Edits.refl _).entries id)⟩
  · have hstart : Advances p.shared (p.shared.start cfg m.1 c).1 _ := h.start hm hc
    rw [hs, ht]
    exact ⟨hstart.ordered.perm List.perm_append_comm, hstart.edited⟩
  · suffices hresume : Advances p.shared (p.shared.resume cfg m.1 t).1
        ((p.shared.resume cfg m.1 t).2.toList ++ others) by
      rw [hs]
      exact ⟨hresume.ordered.perm ht.symm, hresume.edited⟩
    refine (h.perm hp).resume m.1 fun id path name mime size room heq => ?_
    subst heq
    simp only [Fresh, hm, hi] at hc
    refine hc.imp_right (Or.imp_right fun hleaving => ?_)
    rcases List.mem_cons.mp (hp.mem_iff.mp hleaving) with heq | hothers
    · exact nomatch heq
    · exact hothers

theorem new (names : List String) : Ordered (.new names) [] where
  keyed _ _ h := absurd h (by simp [TransferWorld.new])
  ids _ := ⟨rfl, Nat.zero_le _, rfl⟩
  inRoom _ _ h := absurd h (by simp [TransferWorld.new])
  tidied _ _ _ h := nomatch h

theorem lifecycle (h : Ordered p.shared p.tasks) : Lifecycle p := by
  refine ⟨fun id => ?_, fun id e he => ?_, h.inRoom⟩
  · have hat := h.ids id
    unfold OrderedAt at hat
    split at hat
    · omega
    · exact hat.1
  · have hat := h.ids id
    unfold OrderedAt at hat
    rw [he] at hat
    obtain ⟨-, -, hev, hrun⟩ := hat
    cases hend : e.stage.isTerminal with
    | true =>
      rw [hend, if_pos rfl] at hev
      exact ⟨Nat.le_of_eq hev, fun _ => hev⟩
    | false =>
      rw [hend] at hev
      have hone := hrun hend
      exact ⟨by rw [hev]; exact Nat.zero_le _, fun hzero => absurd hzero (by omega)⟩

end Ordered

theorem Advances.sticky {cfg : TransferConfig} {p : Pool TransferWorld Task}
    {m : TransferEnv × Pick TransferCall}
    (h : Advances p.shared ((transferProgram cfg).step p m).shared
      ((transferProgram cfg).step p m).tasks) : Sticky cfg p m := by
  intro id e he hend
  rcases h.edited id with hnone | hedit
  · exact absurd (hnone.symm.trans he) (Option.some_ne_none e).symm
  · exact hedit.terminal he hend

/-- **The life of a transfer**: in every run whose moves meet `Fresh`, each id has at most one task,
each transfer announces one terminal stage, which stays, and no upload is under way in a room that
was left. -/
theorem lifecycle_run (cfg : TransferConfig) (names : List String)
    (moves : List (TransferEnv × Pick TransferCall))
    (h : Always (transferProgram cfg).step Fresh ⟨.new names, []⟩ moves) :
    ∀ pre, pre <+: moves → Lifecycle ((transferProgram cfg).run ⟨.new names, []⟩ pre) ∧
      ∀ m, pre ++ [m] <+: moves →
        Sticky cfg ((transferProgram cfg).run ⟨.new names, []⟩ pre) m := by
  intro pre hpre
  have hordered := h.invariant_all (I := fun p => Ordered p.shared p.tasks)
    (fun _ _ hc h => (h.step hc).ordered) (Ordered.new names) hpre
  exact ⟨hordered.lifecycle, fun m hm => (hordered.step (h.at hm)).sticky⟩

/-! ## Runs -/

def sampleTransfers : TransferConfig where
  mimeOf _ := "application/octet-stream"
  shareData share := share.transferId
  formatBytes n := toString n ++ " B"

def sampleCall (c : TransferCall) : TransferEnv × Pick TransferCall := (⟨.next, "u1", some 3⟩, .start c)

def sampleNext (i : Nat) (outcome : Outcome) : TransferEnv × Pick TransferCall :=
  (⟨outcome, "", none⟩, .resume i)

def sampleOffer (id : String) : RelayShareData := ⟨id, "notes.txt", 3, "text/plain"⟩

/-- Answered, named, created, written to the end. -/
def sampleFetched (i : Nat) : List (TransferEnv × Pick TransferCall) :=
  [sampleNext i (.respond "notes.txt" 3), sampleNext i .next, sampleNext i .next,
    sampleNext i .next, sampleNext i (.chunk 3), sampleNext i .finish]

/-- A share, a room change that cancels it, and a download. -/
def sampleTransfer : List (TransferEnv × Pick TransferCall) :=
  [sampleCall (.setRoomId "a"), sampleNext 0 .next, sampleCall (.share "notes.txt"),
    sampleNext 0 .next, sampleNext 0 .next, sampleCall (.setRoomId "b"), sampleNext 1 .next,
    sampleNext 0 .cancelled, sampleCall (.download (some (sampleOffer "d1")))] ++ sampleFetched 0

instance (p : Pool TransferWorld Task) :
    ∀ m : TransferEnv × Pick TransferCall, Decidable (Fresh p m)
  | (_, .start call) => by
    unfold Fresh
    cases call with
    | download share => cases share <;> infer_instance
    | _ => infer_instance
  | (_, .resume i) => by
    unfold Fresh
    dsimp only
    exact match p.tasks[i]? with
      | none => .isTrue trivial
      | some task => by cases task <;> infer_instance

theorem lifecycle_sample :
    let p := (transferProgram sampleTransfers).run ⟨.new [], []⟩ sampleTransfer
    (p.shared.transfers.get "u1").map TransferEntry.stage = some (.failed "room changed") ∧
      (p.shared.transfers.get "d1").map TransferEntry.stage = some (.done "notes.txt") ∧
      Lifecycle p :=
  ⟨by decide +kernel, by decide +kernel, (lifecycle_run sampleTransfers [] sampleTransfer
    (by decide +kernel) _ (List.prefix_refl _)).1⟩

/-- The same offer is downloaded twice. -/
def sampleTwice : List (TransferEnv × Pick TransferCall) :=
  [sampleCall (.download (some (sampleOffer "d1"))), sampleCall (.download (some (sampleOffer "d1")))]

/-- The room changes between the two halves of a share. -/
def sampleLateShare : List (TransferEnv × Pick TransferCall) :=
  [sampleCall (.setRoomId "a"), sampleNext 0 .next, sampleCall (.share "notes.txt"),
    sampleNext 0 .next, sampleCall (.setRoomId "b"), sampleNext 1 .next, sampleNext 0 .next]

/-- **A transfer has two tasks, is revived, and stays in a room that was left** when an offer is
downloaded twice, again after a cancel, and when the room changes during a share. -/
theorem not_lifecycle :
    ¬ Lifecycle ((transferProgram sampleTransfers).run ⟨.new [], []⟩ sampleTwice) ∧
      ¬ Sticky sampleTransfers ((transferProgram sampleTransfers).run ⟨.new [], []⟩
        [sampleCall (.download (some (sampleOffer "d1"))), sampleCall (.cancel "d1" false)])
        (sampleCall (.download (some (sampleOffer "d1")))) ∧
      ¬ Lifecycle ((transferProgram sampleTransfers).run ⟨.new [], []⟩ sampleLateShare) := by
  refine ⟨fun h => ?_, fun h => ?_, fun h => ?_⟩
  · have hone := h.oneTask "d1"
    revert hone
    decide +kernel
  · have hstage := h "d1" ((((transferProgram sampleTransfers).run ⟨.new [], []⟩
      [sampleCall (.download (some (sampleOffer "d1"))), sampleCall (.cancel "d1" false)]
      ).shared.transfers.get "d1").get (by decide +kernel)) (by simp) (by decide +kernel)
    revert hstage
    decide +kernel
  · have hroom := h.inRoom "u1" ((((transferProgram sampleTransfers).run ⟨.new [], []⟩
      sampleLateShare).shared.transfers.get "u1").get (by decide +kernel)) (by simp)
      (by decide +kernel) "a" (by decide +kernel)
    revert hroom
    decide +kernel

end Rumble.Desktop
