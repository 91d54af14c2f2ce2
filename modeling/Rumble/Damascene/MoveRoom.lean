import Rumble.Client.Projection
import Rumble.Client.RoomTree
import Rumble.Server.RoomEdits

/-!
# The "Move to…" picker

`rumble-damascene/src/move_room.rs`, over the tree of `RoomTree.rebuild`. The recursions have a bound on
their depth here, and answer `none` when it is used up: the code returns when some bound is
enough. On a list without a cycle of parents the number of rooms is enough, and on a list with one
the search of a subtree on the cycle never returns (`pickerAgrees_iff`). What the picker offers in a
well-formed tree is accepted by `handle_move_room`.
-/

namespace Rumble.Damascene

open Rumble.Lib Rumble.Client Relation
open Rumble.Server (World HandleId evaluateUserPermissions)

/-- The permission bits of a room: its own entry when there is one, else those of the session. -/
def roomPerms (state : ClientState) (roomId : Uuid) : Permissions :=
  Permissions.fromBitsTruncate
    ((state.perRoomPermissions.get roomId).getD state.effectivePermissions)

/-- Root cannot be moved. -/
def canMoveRoom (tree : RoomTree) (state : ClientState) (roomId : Uuid) : Bool :=
  if roomId = rootRoomUuid then false
  else (tree.get roomId).isSome && (roomPerms state roomId).contains Permissions.modifyRoom

/-- `target` lies in the subtree of `source`, which includes `source`. -/
def inSubtree (tree : RoomTree) : Nat → Uuid → Uuid → Option Bool
  | 0, _, _ => none
  | fuel + 1, source, target =>
    if source = target then some true
    else match tree.get source with
      | none => some false
      | some node => node.children.anyM fun child => inSubtree tree fuel child target

def isValidMoveTarget (tree : RoomTree) (state : ClientState) (fuel : Nat) (source target : Uuid) :
    Option Bool :=
  (inSubtree tree fuel source target).map fun inside =>
    if inside then false
    else match tree.get source with
      | none => false
      | some sourceNode =>
        if (tree.get target).isNone then false
        else if sourceNode.parentId = some target then false -- already there
        else (roomPerms state target).contains Permissions.makeRoom

/-- A row of the picker, with its depth in the tree. -/
structure Destination where
  id : Uuid
  name : String
  depth : Nat
  deriving DecidableEq

/-- The walk below a room; it does not go into the subtree of `source`. -/
def walk (tree : RoomTree) (state : ClientState) (fuel : Nat) (source : Uuid) :
    Nat → Uuid → Nat → List Destination → Option (List Destination)
  | 0, _, _, _ => none
  | n + 1, roomId, depth, out =>
    match tree.get roomId with
    | none => some out
    | some node =>
      if roomId = source then some out
      else (isValidMoveTarget tree state fuel source roomId).bind fun valid =>
        node.children.foldlM (fun out child => walk tree state fuel source n child (depth + 1) out)
          (if valid then out ++ [⟨roomId, node.name, depth⟩] else out)

def destinations (tree : RoomTree) (state : ClientState) (fuel : Nat) (source : Uuid) :
    Option (List Destination) :=
  walk tree state fuel source fuel rootRoomUuid 0 []

/-! ## What is said of the picker -/

/-- The client offers to move `source` below `target`. -/
def Offered (tree : RoomTree) (state : ClientState) (source target : Uuid) : Prop :=
  canMoveRoom tree state source = true ∧
    ∃ fuel, isValidMoveTarget tree state fuel source target = some true

/-- On the two bits that a move needs the client and the server answer alike. -/
structure KnownAlike (state : ClientState) (w : World) (sender : HandleId) : Prop where
  modifyRoom : ∀ r ∈ w.rooms, (roomPerms state r.id).contains Permissions.modifyRoom =
    (evaluateUserPermissions w.state w.store sender r.id).contains Permissions.modifyRoom
  makeRoom : ∀ r ∈ w.rooms, (roomPerms state r.id).contains Permissions.makeRoom =
    (evaluateUserPermissions w.state w.store sender r.id).contains Permissions.makeRoom

/-- The server's answer to the move that the picker sends: it succeeds, and the parent of the room
is another than before. -/
structure MoveAccepted (w : World) (sender : HandleId) (source target : Uuid) : Prop where
  moved : (World.handleMoveRoom sender (some (roomIdFromUuid source))
    (some (roomIdFromUuid target)) w).rooms =
      modifyFirst (fun r => r.id == source) (fun r => { r with parent := target }) w.rooms
  changed : parentLink w.rooms source ≠ some target ∧
    parentLink (World.handleMoveRoom sender (some (roomIdFromUuid source))
      (some (roomIdFromUuid target)) w).rooms source = some target
  wellFormed : Server.RoomTree (World.handleMoveRoom sender (some (roomIdFromUuid source))
    (some (roomIdFromUuid target)) w).rooms
  reply : ∃ message, (World.handleMoveRoom sender (some (roomIdFromUuid source))
    (some (roomIdFromUuid target)) w).log.getLast? =
      some (.send sender (.commandResult "MoveRoom" true message))

/-- What is said of the picker on the tree of a room list, in whatever order the map has its keys. -/
structure PickerAgrees (rooms : List Room) : Prop where
  /-- What the picker offers in a well-formed tree, the server does. -/
  accepted : ∀ keys, KeyOrder rooms keys → Server.RoomTree rooms → ∀ (w : World) state sender,
    w.rooms = rooms → KnownAlike state w sender → ∀ source target,
      Offered (RoomTree.rebuild keys rooms) state source target → MoveAccepted w sender source target
  /-- In a well-formed tree the rows are the valid targets, each once. -/
  listed : ∀ keys, KeyOrder rooms keys → Server.RoomTree rooms → ∀ state source, ∃ fuel dests,
    destinations (RoomTree.rebuild keys rooms) state fuel source = some dests ∧
      (dests.map Destination.id).Nodup ∧ ∀ target, target ∈ dests.map Destination.id ↔
        ∃ fuel, isValidMoveTarget (RoomTree.rebuild keys rooms) state fuel source target = some true
  inSubtree_returns : ∀ keys, KeyOrder rooms keys → ∀ source target, ∃ fuel inside,
    inSubtree (RoomTree.rebuild keys rooms) fuel source target = some inside
  isValidMoveTarget_returns : ∀ keys, KeyOrder rooms keys → ∀ state source target, ∃ fuel valid,
    isValidMoveTarget (RoomTree.rebuild keys rooms) state fuel source target = some valid
  destinations_returns : ∀ keys, KeyOrder rooms keys → ∀ state source, ∃ fuel dests,
    destinations (RoomTree.rebuild keys rooms) state fuel source = some dests

/-! ## Searching a subtree -/

/-- `b` is among the children of `a`. -/
def Child (tree : RoomTree) (a b : Uuid) : Prop := b ∈ tree.children a

theorem children_eq {tree : RoomTree} {a : Uuid} {node : RoomTreeNode} (h : tree.get a = some node) :
    tree.children a = node.children := by
  rw [RoomTree.children, h, Option.elim_some]

theorem not_child_of_none {tree : RoomTree} {a b : Uuid} (h : tree.get a = none) :
    ¬ Child tree a b := by
  rw [Child, RoomTree.children, h, Option.elim_none]
  exact List.not_mem_nil

section Search

variable {tree : RoomTree} {state : ClientState} {source target : Uuid}

/-- An answer of the search is right. -/
theorem inSubtree_sound {fuel : Nat} {inside : Bool}
    (h : inSubtree tree fuel source target = some inside) :
    inside = true ↔ ReflTransGen (Child tree) source target := by
  induction fuel generalizing source inside with
  | zero => cases h
  | succ fuel ih =>
    rw [inSubtree] at h
    by_cases heq : source = target
    · rw [if_pos heq, Option.some.injEq] at h
      exact iff_of_true h.symm (heq ▸ .refl)
    rw [if_neg heq] at h
    cases hnode : tree.get source with
    | none =>
      rw [hnode] at h
      obtain rfl := Option.some.inj h
      refine iff_of_false Bool.false_ne_true fun hbelow => ?_
      rcases hbelow.cases_head with hst | ⟨child, hchild, -⟩
      · exact heq hst
      · exact not_child_of_none hnode hchild
    | some node =>
      rw [hnode] at h
      have hchild : ∀ {child}, Child tree source child ↔ child ∈ node.children := by
        intro child
        rw [Child, children_eq hnode]
      cases inside with
      | true =>
        obtain ⟨child, hmem, hinside⟩ := exists_of_anyM h
        exact iff_of_true rfl (.head (hchild.mpr hmem) ((ih hinside).mp rfl))
      | false =>
        refine iff_of_false Bool.false_ne_true fun hbelow => ?_
        rcases hbelow.cases_head with hst | ⟨child, hmem, hrest⟩
        · exact heq hst
        · exact absurd ((ih (forall_of_anyM h child (hchild.mp hmem))).mpr hrest)
            Bool.false_ne_true

/-- One level of the search is made when those below it are. -/
theorem exists_inSubtree_succ {fuel : Nat}
    (h : ∀ child, Child tree source child → ∃ inside, inSubtree tree fuel child target = some inside) :
    ∃ inside, inSubtree tree (fuel + 1) source target = some inside := by
  rw [inSubtree]
  split
  · exact ⟨true, rfl⟩
  · cases hnode : tree.get source with
    | none => exact ⟨false, rfl⟩
    | some node =>
      refine exists_anyM fun child hmem => h child ?_
      rwa [Child, children_eq hnode]

/-! ## Valid targets -/

/-- The conditions on a target. -/
def ValidTarget (tree : RoomTree) (state : ClientState) (source target : Uuid) : Prop :=
  ¬ ReflTransGen (Child tree) source target ∧ (tree.get target).isSome ∧
    ∃ node, tree.get source = some node ∧ node.parentId ≠ some target ∧
      (roomPerms state target).contains Permissions.makeRoom = true

theorem isValidMoveTarget_sound {fuel : Nat} {valid : Bool}
    (h : isValidMoveTarget tree state fuel source target = some valid) :
    valid = true ↔ ValidTarget tree state source target := by
  obtain ⟨inside, hinside, rfl⟩ := Option.map_eq_some_iff.mp h
  unfold ValidTarget
  rw [← inSubtree_sound hinside]
  cases inside with
  | true => simp
  | false =>
    cases hnode : tree.get source with
    | none => simp
    | some node =>
      cases htarget : tree.get target with
      | none => simp
      | some targetNode =>
        by_cases hparent : node.parentId = some target
        · simp [hparent]
        · simp [hparent]

theorem exists_isValidMoveTarget {fuel : Nat} {inside : Bool}
    (h : inSubtree tree fuel source target = some inside) :
    ∃ valid, isValidMoveTarget tree state fuel source target = some valid := by
  rw [isValidMoveTarget, h]
  exact ⟨_, rfl⟩

end Search

/-! ## The walk -/

/-- The children lists of a tree without a cycle, in which a room has one parent. -/
structure Forest (tree : RoomTree) : Prop where
  acyclic : Acyclic (Child tree)
  parent : ∀ a b c, Child tree a c → Child tree b c → a = b
  nodup : ∀ a, (tree.children a).Nodup

/-- Two siblings have nothing in common below them. -/
theorem Forest.disjoint {tree : RoomTree} (h : Forest tree) (a : Uuid) :
    (tree.children a).Pairwise fun top other => ∀ target, ReflTransGen (Child tree) top target →
      ¬ ReflTransGen (Child tree) other target := by
  refine (h.nodup a).imp_of_mem ?_
  intro top other htop hother hne target hbelow hbelow'
  exact hne (h.acyclic.eq_of_below h.parent htop hother hbelow hbelow')

section Walk

variable {tree : RoomTree} {state : ClientState} {fuel : Nat} {source : Uuid}

/-- The rows for the rooms of `tops` and all that is below them. -/
structure ListsBelow (tree : RoomTree) (state : ClientState) (source : Uuid) (tops : List Uuid)
    (found : List Destination) : Prop where
  nodup : (found.map Destination.id).Nodup
  mem : ∀ target, target ∈ found.map Destination.id ↔ ValidTarget tree state source target ∧
    ∃ top ∈ tops, ReflTransGen (Child tree) top target

namespace ListsBelow

/-- No row, where no target is valid. -/
theorem empty {tops : List Uuid} (h : ∀ top ∈ tops, ∀ target, ReflTransGen (Child tree) top target →
    ¬ ValidTarget tree state source target) : ListsBelow tree state source tops [] := by
  refine ⟨List.nodup_nil, fun target => iff_of_false List.not_mem_nil ?_⟩
  rintro ⟨hvalid, top, htop, hbelow⟩
  exact h top htop target hbelow hvalid

/-- Rows of rooms with nothing in common below them are put one after the other. -/
theorem append {top : Uuid} {tops : List Uuid} {found found' : List Destination}
    (h : ListsBelow tree state source [top] found) (h' : ListsBelow tree state source tops found')
    (hdisjoint : ∀ other ∈ tops, ∀ target, ReflTransGen (Child tree) top target →
      ¬ ReflTransGen (Child tree) other target) :
    ListsBelow tree state source (top :: tops) (found ++ found') := by
  refine ⟨?_, fun target => ?_⟩
  · rw [List.map_append]
    refine List.nodup_append.mpr ⟨h.nodup, h'.nodup, ?_⟩
    rintro target htarget _ hother rfl
    obtain ⟨-, top', htop', hbelow⟩ := (h.mem target).mp htarget
    obtain ⟨-, other, hmem, hbelow'⟩ := (h'.mem target).mp hother
    obtain rfl := List.mem_singleton.mp htop'
    exact hdisjoint other hmem target hbelow hbelow'
  · rw [List.map_append, List.mem_append, h.mem, h'.mem, ← and_or_left]
    simp

/-- The row of a room before those of its children. -/
theorem node (row : Destination) {found : List Destination} {valid : Bool} (hforest : Forest tree)
    (hvalid : valid = true ↔ ValidTarget tree state source row.id)
    (h : ListsBelow tree state source (tree.children row.id) found) :
    ListsBelow tree state source [row.id] ((if valid then [row] else []) ++ found) := by
  have hbelow : ∀ target, ReflTransGen (Child tree) row.id target ↔ target = row.id ∨
      ∃ top ∈ tree.children row.id, ReflTransGen (Child tree) top target := by
    intro target
    rw [ReflTransGen.cases_head_iff]
    exact or_congr_left eq_comm
  have hfresh : row.id ∉ found.map Destination.id := by
    intro hmem
    obtain ⟨-, top, htop, hrest⟩ := (h.mem row.id).mp hmem
    exact hforest.acyclic row.id (.head' htop hrest)
  cases valid with
  | true =>
    refine ⟨List.nodup_cons.mpr ⟨hfresh, h.nodup⟩, fun target => ?_⟩
    have hself := hvalid.mp rfl
    rw [if_pos rfl, List.singleton_append, List.map_cons, List.mem_cons, h.mem]
    simp only [List.mem_singleton, exists_eq_left, hbelow, and_or_left]
    exact or_congr_left ⟨fun heq => ⟨heq ▸ hself, heq⟩, And.right⟩
  | false =>
    have hself : ¬ ValidTarget tree state source row.id := fun hv =>
      Bool.false_ne_true (hvalid.mpr hv)
    refine ⟨h.nodup, fun target => ?_⟩
    rw [if_neg Bool.false_ne_true, List.nil_append, h.mem]
    simp only [List.mem_singleton, exists_eq_left, hbelow]
    refine and_congr_right fun hv => (or_iff_right ?_).symm
    rintro rfl
    exact hself hv

end ListsBelow

/-- The loop over rooms with nothing in common below them. -/
theorem foldlM_lists {f : List Destination → Uuid → Option (List Destination)} {tops : List Uuid}
    (hf : ∀ top ∈ tops, ∀ out out', f out top = some out' →
      ∃ found, out' = out ++ found ∧ ListsBelow tree state source [top] found)
    (hdisjoint : tops.Pairwise fun top other => ∀ target, ReflTransGen (Child tree) top target →
      ¬ ReflTransGen (Child tree) other target)
    {out out' : List Destination} (h : tops.foldlM f out = some out') :
    ∃ found, out' = out ++ found ∧ ListsBelow tree state source tops found := by
  induction tops generalizing out with
  | nil =>
    obtain rfl := Option.some.inj h
    exact ⟨[], (List.append_nil out).symm, .empty fun top htop => absurd htop List.not_mem_nil⟩
  | cons top tops ih =>
    obtain ⟨hhead, htail⟩ := List.pairwise_cons.mp hdisjoint
    rw [List.foldlM_cons] at h
    obtain ⟨mid, hmid, hrest⟩ := Option.bind_eq_some_iff.mp h
    obtain ⟨found, rfl, hfound⟩ := hf top List.mem_cons_self out mid hmid
    obtain ⟨found', rfl, hfound'⟩ :=
      ih (fun other hother => hf other (List.mem_cons_of_mem top hother)) htail hrest
    exact ⟨found ++ found', List.append_assoc _ _ _, hfound.append hfound' hhead⟩

/-- **The rows of a walk are the valid targets below its room, each once.** -/
theorem walk_lists (hforest : Forest tree) {n : Nat} {roomId : Uuid} {depth : Nat}
    {out out' : List Destination} (h : walk tree state fuel source n roomId depth out = some out') :
    ∃ found, out' = out ++ found ∧ ListsBelow tree state source [roomId] found := by
  induction n generalizing roomId depth out out' with
  | zero => cases h
  | succ n ih =>
    rw [walk] at h
    cases hnode : tree.get roomId with
    | none =>
      rw [hnode, Option.some.injEq] at h
      refine ⟨[], by rw [h, List.append_nil], .empty (List.forall_mem_singleton.mpr ?_)⟩
      intro target hbelow hvalid
      rcases hbelow.cases_head with rfl | ⟨child, hchild, -⟩
      · simpa [hnode] using hvalid.2.1
      · exact not_child_of_none hnode hchild
    | some node =>
      rw [hnode] at h
      by_cases hsource : roomId = source
      · simp only [if_pos hsource, Option.some.injEq] at h
        refine ⟨[], by rw [h, List.append_nil], .empty (List.forall_mem_singleton.mpr ?_)⟩
        exact fun target hbelow hvalid => hvalid.1 (hsource ▸ hbelow)
      · simp only [if_neg hsource] at h
        obtain ⟨valid, hvalid, hloop⟩ := Option.bind_eq_some_iff.mp h
        rw [← children_eq hnode] at hloop
        obtain ⟨found, rfl, hfound⟩ := foldlM_lists (fun child _ out out' hwalk => ih hwalk)
          (hforest.disjoint roomId) hloop
        refine ⟨_, ?_, .node ⟨roomId, node.name, depth⟩ hforest (isValidMoveTarget_sound hvalid)
          hfound⟩
        cases valid <;> simp

/-- One level of the walk is made when those below it are. -/
theorem exists_walk_succ {n : Nat} {roomId : Uuid}
    (hvalid : ∀ target, ∃ valid, isValidMoveTarget tree state fuel source target = some valid)
    (h : ∀ child, Child tree roomId child → ∀ depth out, ∃ out',
      walk tree state fuel source n child depth out = some out') (depth : Nat)
    (out : List Destination) :
    ∃ out', walk tree state fuel source (n + 1) roomId depth out = some out' := by
  rw [walk]
  cases hnode : tree.get roomId with
  | none => exact ⟨out, rfl⟩
  | some node =>
    dsimp only
    split
    · exact ⟨out, rfl⟩
    · obtain ⟨valid, hv⟩ := hvalid roomId
      rw [hv, Option.bind_some]
      refine exists_foldlM (fun child hmem out => h child ?_ _ out) _
      rwa [Child, children_eq hnode]

end Walk

/-! ## The tree of a room list -/

section Rebuilt

variable {rooms : List Room} {keys : List Uuid}

theorem child_rebuild (hkeys : KeyOrder rooms keys) {a b : Uuid} :
    Child (RoomTree.rebuild keys rooms) a b ↔
      treeParent rooms b = some a ∧ ∃ r ∈ rooms, r.id = a := by
  rw [Child, RoomTree.children, RoomTree.get_rebuild, ← isSome_lastRoom]
  cases lastRoom rooms a with
  | none => simp
  | some r =>
    rw [Option.map_some, Option.elim_some, (List.mergeSort_perm _ _).mem_iff, List.mem_filter,
      hkeys.mem, decide_eq_true_iff]
    refine ⟨fun h => ⟨h.2, rfl⟩, fun h => ⟨exists_of_treeParent ?_, h.1⟩⟩
    rw [h.1]
    rfl

theorem forest_rebuild (hkeys : KeyOrder rooms keys) (hacyclic : NoParentCycle rooms) :
    Forest (RoomTree.rebuild keys rooms) := by
  refine ⟨hacyclic.of_swap fun a b h => ((child_rebuild hkeys).mp h).1, ?_, fun a => ?_⟩
  · intro a b c ha hb
    exact Option.some.inj
      (((child_rebuild hkeys).mp ha).1.symm.trans ((child_rebuild hkeys).mp hb).1)
  · rw [RoomTree.children, RoomTree.get_rebuild]
    cases lastRoom rooms a with
    | none => exact List.nodup_nil
    | some r => exact (List.mergeSort_perm _ _).nodup_iff.mpr (hkeys.nodup.filter _)

theorem mem_keys_of_child (hkeys : KeyOrder rooms keys) (a b : Uuid)
    (h : Child (RoomTree.rebuild keys rooms) a b) : b ∈ keys := by
  refine (hkeys.mem b).mpr (exists_of_treeParent ?_)
  rw [((child_rebuild hkeys).mp h).1]
  rfl

/-! Without a cycle the recursions end. -/

theorem inSubtree_of_acyclic (hkeys : KeyOrder rooms keys) (hacyclic : NoParentCycle rooms)
    (source target : Uuid) :
    ∃ inside, inSubtree (RoomTree.rebuild keys rooms) (keys.length + 1) source target =
      some inside :=
  (forest_rebuild hkeys hacyclic).acyclic.descend (mem_keys_of_child hkeys)
    (P := fun n a => ∃ inside, inSubtree (RoomTree.rebuild keys rooms) n a target = some inside)
    (fun _ _ => exists_inSubtree_succ) source

theorem isValidMoveTarget_of_acyclic (hkeys : KeyOrder rooms keys) (hacyclic : NoParentCycle rooms)
    (state : ClientState) (source target : Uuid) :
    ∃ valid, isValidMoveTarget (RoomTree.rebuild keys rooms) state (keys.length + 1) source target =
      some valid := by
  obtain ⟨inside, h⟩ := inSubtree_of_acyclic hkeys hacyclic source target
  exact exists_isValidMoveTarget h

theorem destinations_of_acyclic (hkeys : KeyOrder rooms keys) (hacyclic : NoParentCycle rooms)
    (state : ClientState) (source : Uuid) :
    ∃ dests, destinations (RoomTree.rebuild keys rooms) state (keys.length + 1) source =
      some dests :=
  (forest_rebuild hkeys hacyclic).acyclic.descend (mem_keys_of_child hkeys)
    (P := fun n a => ∀ depth out, ∃ out', walk (RoomTree.rebuild keys rooms) state
      (keys.length + 1) source n a depth out = some out')
    (fun _ _ => exists_walk_succ (isValidMoveTarget_of_acyclic hkeys hacyclic state source))
    rootRoomUuid 0 []

/-! On a cycle the search goes on forever. -/

theorem treeParent_root : treeParent rooms rootRoomUuid = none := by
  unfold treeParent
  cases hroom : lastRoom rooms rootRoomUuid with
  | none => rfl
  | some r =>
    have hid : r.id = rootRoomUuid := by simpa using List.find?_some hroom
    simp [RoomTreeNode.new, Room.isRoot, hid]

/-- The search for Root below a room on a cycle of parents has no answer. -/
theorem inSubtree_of_cycle (hkeys : KeyOrder rooms keys) {a : Uuid}
    (hcycle : TransGen (fun a b => treeParent rooms a = some b) a a) (fuel : Nat) :
    inSubtree (RoomTree.rebuild keys rooms) fuel a rootRoomUuid = none := by
  induction fuel generalizing a with
  | zero => rfl
  | succ fuel ih =>
    -- the room has a parent, and is the parent of a room on the cycle
    obtain ⟨p, hp, -⟩ := TransGen.head'_iff.mp hcycle
    obtain ⟨child, hchild, hcycle'⟩ := exists_of_transGen_self hcycle
    have hroom : ∃ r ∈ rooms, r.id = a := exists_of_treeParent (by rw [hp]; rfl)
    have hmem : Child (RoomTree.rebuild keys rooms) a child :=
      (child_rebuild hkeys).mpr ⟨hchild, hroom⟩
    have hne : a ≠ rootRoomUuid := by
      rintro rfl
      rw [treeParent_root] at hp
      cases hp
    cases hsearch : inSubtree (RoomTree.rebuild keys rooms) (fuel + 1) a rootRoomUuid with
    | none => rfl
    | some inside =>
      have houtside : inside = false := by
        rw [← Bool.not_eq_true, inSubtree_sound hsearch]
        intro hbelow
        rcases hbelow.cases_tail with rfl | ⟨b, -, hb⟩
        · exact hne rfl
        · rw [child_rebuild hkeys, treeParent_root] at hb
          cases hb.1
      rw [houtside, inSubtree, if_neg hne] at hsearch
      obtain ⟨node, hnode⟩ := Option.isSome_iff_exists.mp ((RoomTree.isSome_rebuild keys a).mpr hroom)
      rw [hnode] at hsearch
      rw [Child, children_eq hnode] at hmem
      exact absurd ((ih hcycle').symm.trans (forall_of_anyM hsearch child hmem)) (by simp)

/-- A list with a cycle hangs the search. -/
theorem noParentCycle_of_returns
    (h : ∀ keys, KeyOrder rooms keys → ∀ source target, ∃ fuel inside,
      inSubtree (RoomTree.rebuild keys rooms) fuel source target = some inside) :
    NoParentCycle rooms := by
  intro a hcycle
  have hkeys : KeyOrder rooms (rooms.map Room.id).dedup :=
    ⟨List.nodup_dedup _, fun uuid => by rw [List.mem_dedup, List.mem_map]⟩
  obtain ⟨fuel, inside, hsome⟩ := h _ hkeys a rootRoomUuid
  rw [inSubtree_of_cycle hkeys hcycle] at hsome
  cases hsome

end Rebuilt

/-! ## Against the server -/

section Server

variable {rooms : List Room} {keys : List Uuid}

theorem treeParent_iff (h : Server.RoomTree rooms) {a b : Uuid} :
    treeParent rooms a = some b ↔ a ≠ rootRoomUuid ∧ parentLink rooms a = some b := by
  rw [treeParent_eq_some h.distinct]
  constructor
  · rintro ⟨r, hr, rfl, hroot, rfl⟩
    exact ⟨by simpa [Room.isRoot] using hroot, Server.parentLink_eq_some h.distinct hr⟩
  · rintro ⟨hne, hlink⟩
    obtain ⟨r, hr, rfl, rfl⟩ := Server.exists_of_parentLink hlink
    exact ⟨r, hr, rfl, by simpa [Room.isRoot] using hne, rfl⟩

theorem noParentCycle_of_roomTree (h : Server.RoomTree rooms) : NoParentCycle rooms := by
  have hup : (fun a b => treeParent rooms a = some b) =
      fun a b => a ≠ rootRoomUuid ∧ parentLink rooms a = some b := by
    funext a b
    exact propext (treeParent_iff h)
  rw [NoParentCycle, hup]
  exact h.rooted.acyclic

/-- In a well-formed tree the rooms below another are those whose way up meets it. -/
theorem below_iff (h : Server.RoomTree rooms) (hkeys : KeyOrder rooms keys) {a b : Uuid} :
    ReflTransGen (Child (RoomTree.rebuild keys rooms)) a b ↔
      Above (parentLink rooms) rootRoomUuid b a := by
  have hchild : Child (RoomTree.rebuild keys rooms) =
      Function.swap fun a b => a ≠ rootRoomUuid ∧ parentLink rooms a = some b := by
    funext a b
    refine propext ((child_rebuild hkeys).trans ?_)
    show _ ↔ b ≠ rootRoomUuid ∧ parentLink rooms b = some a
    rw [treeParent_iff h]
    refine and_iff_left_of_imp fun hlink => ?_
    exact Server.parentLink_isSome.mp (h.rooted.closed b a hlink.2)
  rw [hchild, reflTransGen_swap, above_iff]

/-- A move with both permissions, below a room that is not in the subtree of the moved one. -/
theorem handleMoveRoom_accepts {w : World} {sender : HandleId} {source target : Uuid}
    (hmodify : (evaluateUserPermissions w.state w.store sender source).contains
      Permissions.modifyRoom = true)
    (hmake : (evaluateUserPermissions w.state w.store sender target).contains
      Permissions.makeRoom = true)
    (hne : target ≠ source) (hwalk : World.closesCycle w.rooms source target = false)
    (hsource : ∃ r ∈ w.rooms, r.id = source) :
    (World.handleMoveRoom sender (some (roomIdFromUuid source))
      (some (roomIdFromUuid target)) w).rooms =
        modifyFirst (fun r => r.id == source) (fun r => { r with parent := target }) w.rooms ∧
    ∃ message, (World.handleMoveRoom sender (some (roomIdFromUuid source))
      (some (roomIdFromUuid target)) w).log.getLast? =
        some (.send sender (.commandResult "MoveRoom" true message)) := by
  have hroomId : ∀ u : Uuid, World.roomIdOrRoot (some (roomIdFromUuid u)) = u := fun u => by
    simp [World.roomIdOrRoot]
  have hmove : w.state.data.moveRoom source target = some { w.state.data with
      rooms := modifyFirst (fun r => r.id == source) (fun r => { r with parent := target }) w.rooms } :=
    Server.StateData.editRoom_eq_some.mpr ⟨hsource, rfl⟩
  unfold World.handleMoveRoom World.requirePermission
  simp only [hroomId, if_pos hmodify, if_pos hmake, if_neg hne, hwalk, Bool.false_eq_true, if_false,
    hmove]
  exact ⟨rfl, _, by rw [World.sendCommandResult_log, List.getLast?_concat]⟩

/-- What the picker offers, the server does. -/
theorem moveAccepted (h : Server.RoomTree rooms) (hkeys : KeyOrder rooms keys) {w : World}
    {state : ClientState} {sender : HandleId} (hrooms : w.rooms = rooms)
    (hknown : KnownAlike state w sender) {source target : Uuid}
    (hoffer : Offered (RoomTree.rebuild keys rooms) state source target) :
    MoveAccepted w sender source target := by
  subst hrooms
  obtain ⟨hcan, fuel, hvalid⟩ := hoffer
  obtain ⟨houtside, htarget, node, hnode, hparent, hmake⟩ := (isValidMoveTarget_sound hvalid).mp rfl
  rw [below_iff h hkeys] at houtside
  have hroot : source ≠ rootRoomUuid := by
    rintro rfl
    simp [canMoveRoom] at hcan
  obtain ⟨-, hmodify⟩ : _ ∧ (roomPerms state source).contains Permissions.modifyRoom = true := by
    simpa [canMoveRoom, hroot] using hcan
  have hsource := (RoomTree.isSome_rebuild keys source).mp (by rw [hnode]; rfl)
  have htarget := (RoomTree.isSome_rebuild keys target).mp htarget
  obtain ⟨r, hr, rfl⟩ := hsource
  obtain ⟨p, hp, rfl⟩ := htarget
  have hne : p.id ≠ r.id := fun heq => houtside (heq ▸ .refl _)
  have hwalk : World.closesCycle w.rooms r.id p.id = false := by
    rw [Bool.eq_false_iff]
    exact fun hmeets => houtside (Server.above_of_walkMeets h.rooted.root_link _ _ hmeets)
  obtain ⟨hmoved, message, hreply⟩ := handleMoveRoom_accepts
    ((hknown.modifyRoom r hr).symm.trans hmodify) ((hknown.makeRoom p hp).symm.trans hmake) hne hwalk
    ⟨r, hr, rfl⟩
  have hlink := Server.parentLink_move (Server.parentLink_isSome.mpr ⟨r, hr, rfl⟩) p.id
  refine ⟨hmoved, ⟨fun hsame => hparent ?_, ?_⟩, ?_, message, hreply⟩
  · have htree := (treeParent_iff h).mpr ⟨hroot, hsame⟩
    rwa [← RoomTree.parentId_rebuild keys, hnode, Option.bind_some] at htree
  · rw [hmoved, hlink, Function.update_self]
  · rw [hmoved]
    exact h.move hroot ⟨r, hr, rfl⟩ ⟨p, hp, rfl⟩ houtside

/-- In a well-formed tree every room is below Root. -/
theorem below_root (h : Server.RoomTree rooms) (hkeys : KeyOrder rooms keys) {a : Uuid}
    (ha : ((RoomTree.rebuild keys rooms).get a).isSome) :
    ReflTransGen (Child (RoomTree.rebuild keys rooms)) rootRoomUuid a := by
  obtain ⟨r, hr, rfl⟩ := (RoomTree.isSome_rebuild keys a).mp ha
  obtain ⟨n, hclimbs⟩ := h.reaches r hr
  exact (below_iff h hkeys).mpr hclimbs.above

theorem destinations_listed (h : Server.RoomTree rooms) (hkeys : KeyOrder rooms keys)
    (state : ClientState) (source : Uuid) : ∃ fuel dests,
      destinations (RoomTree.rebuild keys rooms) state fuel source = some dests ∧
      (dests.map Destination.id).Nodup ∧ ∀ target, target ∈ dests.map Destination.id ↔
        ∃ fuel, isValidMoveTarget (RoomTree.rebuild keys rooms) state fuel source target =
          some true := by
  have hacyclic := noParentCycle_of_roomTree h
  obtain ⟨dests, hdests⟩ := destinations_of_acyclic hkeys hacyclic state source
  obtain ⟨found, hfound, hlists⟩ := walk_lists (forest_rebuild hkeys hacyclic) hdests
  rw [List.nil_append] at hfound
  subst hfound
  refine ⟨_, dests, hdests, hlists.nodup, fun target => ?_⟩
  rw [hlists.mem]
  constructor
  · rintro ⟨hvalid, -⟩
    obtain ⟨valid, hreturns⟩ := isValidMoveTarget_of_acyclic hkeys hacyclic state source target
    refine ⟨_, hreturns.trans ?_⟩
    rw [(isValidMoveTarget_sound hreturns).mpr hvalid]
  · rintro ⟨fuel, hreturns⟩
    have hvalid := (isValidMoveTarget_sound hreturns).mp rfl
    exact ⟨hvalid, rootRoomUuid, List.mem_singleton_self _, below_root h hkeys hvalid.2.1⟩

/-- **The picker agrees with the server and returns exactly where the list has no cycle of
parents.** -/
theorem pickerAgrees_iff (rooms : List Room) : PickerAgrees rooms ↔ NoParentCycle rooms := by
  constructor
  · exact fun h => noParentCycle_of_returns h.inSubtree_returns
  · intro hacyclic
    refine ⟨?_, ?_, ?_, ?_, ?_⟩
    · intro keys hkeys h w state sender hrooms hknown source target hoffer
      exact moveAccepted h hkeys hrooms hknown hoffer
    · exact fun keys hkeys h state source => destinations_listed h hkeys state source
    · exact fun keys hkeys source target => ⟨_, inSubtree_of_acyclic hkeys hacyclic source target⟩
    · exact fun keys hkeys state source target =>
        ⟨_, isValidMoveTarget_of_acyclic hkeys hacyclic state source target⟩
    · exact fun keys hkeys state source => ⟨_, destinations_of_acyclic hkeys hacyclic state source⟩

/-! Two rooms that are each other's parent. -/

def sampleLoop : List Room :=
  [⟨rootRoomUuid, "Root", rootRoomUuid, none, true, [], 0⟩,
    ⟨Bytes.rep 16 1, "A", Bytes.rep 16 2, none, true, [], 0⟩,
    ⟨Bytes.rep 16 2, "B", Bytes.rep 16 1, none, true, [], 0⟩]

/-- The search below one of them for Root has no answer. -/
theorem not_pickerAgrees : ¬ PickerAgrees sampleLoop := by
  intro h
  have hacyclic := noParentCycle_of_returns h.inSubtree_returns
  have hup : treeParent sampleLoop (Bytes.rep 16 1) = some (Bytes.rep 16 2) := by decide
  have hdown : treeParent sampleLoop (Bytes.rep 16 2) = some (Bytes.rep 16 1) := by decide
  exact hacyclic _ (.tail (.single hup) hdown)

end Server

end Rumble.Damascene
