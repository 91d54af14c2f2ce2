import Mathlib.Data.String.Basic
import Rumble.Lib.Acyclic
import Rumble.Lib.Loop
import Rumble.Lib.Keyed
import Rumble.Server.Subtree

/-!
# The client's room tree

`RoomTree` of `rumble-client/src/events.rs`. `rebuild` puts the rooms into a map, attaches each to
its parent in the order in which the map gives its keys, and sorts the children by name only;
`keys` is that order. The tree is the same for every order when no two siblings have one name
(`rebuildsTree_iff`). `ancestors` is bounded, and on a list without a cycle of parents it gives the
chain of parents.
-/

namespace Rumble.Client

open Rumble.Lib Relation

structure RoomTreeNode where
  id : Uuid
  name : String
  parentId : Option Uuid
  children : List Uuid
  description : Option String
  deriving DecidableEq

structure RoomTree where
  nodes : Table Uuid RoomTreeNode

/-- The node of a room in the first pass. Root has no parent. -/
def RoomTreeNode.new (room : Room) : RoomTreeNode where
  id := room.id
  name := room.name
  parentId := if room.isRoot then none else some room.parent
  children := []
  description := room.description

namespace RoomTree

/-- The first pass: a later room replaces one with the same id. -/
def insertRooms (rooms : List Room) : Table Uuid RoomTreeNode :=
  rooms.foldl (fun nodes room => nodes.set room.id (.new room)) ∅

/-- One round of the second pass. -/
def attach (nodes : Table Uuid RoomTreeNode) (uuid : Uuid) : Table Uuid RoomTreeNode :=
  match (nodes.get uuid).bind RoomTreeNode.parentId with
  | none => nodes
  | some parentUuid => match nodes.get parentUuid with
    | none => nodes
    | some parent =>
      nodes.set parentUuid { parent with children := parent.children ++ [uuid] }

/-- The name of a child, in the map of names. -/
def nameIn (names : Table Uuid String) (uuid : Uuid) : String := (names.get uuid).getD ""

def sortChildren (nodes : Table Uuid RoomTreeNode) : Table Uuid RoomTreeNode :=
  let names := nodes.mapValues RoomTreeNode.name
  nodes.mapValues fun node =>
    { node with children := node.children.mergeSort fun a b => nameIn names a ≤ nameIn names b }

def rebuild (keys : List Uuid) (rooms : List Room) : RoomTree where
  nodes := sortChildren (keys.foldl attach (insertRooms rooms))

def get (tree : RoomTree) (uuid : Uuid) : Option RoomTreeNode := tree.nodes.get uuid

def children (tree : RoomTree) (uuid : Uuid) : List Uuid :=
  (tree.get uuid).elim [] RoomTreeNode.children

/-- `RoomTree::len` -/
def len (tree : RoomTree) : Nat := tree.nodes.toPairs.length

/-! ## Ancestors -/

structure AncestorIterator where
  current : Option Uuid
  remaining : Nat
  deriving DecidableEq

/-- `AncestorIterator::next`, with the iterator after it. -/
def AncestorIterator.next (tree : RoomTree) (it : AncestorIterator) :
    Option (Uuid × AncestorIterator) :=
  if it.remaining = 0 then none
  else match it.current with
    | none => none
    | some current =>
      some (current, ⟨(tree.get current).bind RoomTreeNode.parentId, it.remaining - 1⟩)

def ancestors (tree : RoomTree) (uuid : Uuid) : AncestorIterator :=
  ⟨(tree.get uuid).bind RoomTreeNode.parentId, tree.len⟩

/-- A loop over the iterator that collects what it yields. -/
def collectBody (tree : RoomTree) (s : AncestorIterator × List Uuid) :
    List Uuid ⊕ AncestorIterator × List Uuid :=
  match s.1.next tree with
  | none => .inl s.2
  | some (uuid, it) => .inr (it, s.2 ++ [uuid])

end RoomTree

/-! ## Parents in a room list -/

/-- The room that a map has for an id: the last one of the list. -/
def lastRoom (rooms : List Room) (uuid : Uuid) : Option Room :=
  rooms.reverse.find? fun r => r.id == uuid

/-- The parent of a room as the tree has it. -/
def treeParent (rooms : List Room) (uuid : Uuid) : Option Uuid :=
  (lastRoom rooms uuid).bind fun r => (RoomTreeNode.new r).parentId

/-- No room is above itself. -/
def NoParentCycle (rooms : List Room) : Prop := Acyclic fun a b => treeParent rooms a = some b

/-- An order in which a map with these rooms may give its keys. -/
structure KeyOrder (rooms : List Room) (keys : List Uuid) : Prop where
  nodup : keys.Nodup
  mem : ∀ uuid, uuid ∈ keys ↔ ∃ r ∈ rooms, r.id = uuid

/-- No two rooms below the same existing room have one name. -/
def SiblingNamesDiffer (rooms : List Room) : Prop :=
  ∀ r ∈ rooms, ∀ s ∈ rooms, r.isRoot = false → s.isRoot = false → r.parent = s.parent →
    (∃ p ∈ rooms, p.id = r.parent) → r.name = s.name → r.id = s.id

/-- What is said of the tree of a room list, whatever the order of the list and of the map. -/
structure RebuildsTree (rooms : List Room) : Prop where
  /-- The tree is the same for every order. -/
  same : ∀ rooms' keys keys', rooms'.Perm rooms → KeyOrder rooms keys → KeyOrder rooms keys' →
    ∀ uuid, (RoomTree.rebuild keys' rooms').get uuid = (RoomTree.rebuild keys rooms).get uuid
  /-- The nodes are the rooms, and the children of a node are the rooms below it, each once. -/
  nodes : ∀ keys, KeyOrder rooms keys → ∀ uuid,
    ((RoomTree.rebuild keys rooms).get uuid).isSome ↔ ∃ r ∈ rooms, r.id = uuid
  children : ∀ keys, KeyOrder rooms keys → ∀ uuid node,
    (RoomTree.rebuild keys rooms).get uuid = some node → node.children.Nodup ∧
      ∀ child, child ∈ node.children ↔
        ∃ r ∈ rooms, r.id = child ∧ r.isRoot = false ∧ r.parent = uuid
  sorted : ∀ keys, KeyOrder rooms keys → ∀ uuid node,
    (RoomTree.rebuild keys rooms).get uuid = some node → node.children.Pairwise fun a b =>
      ∀ r ∈ rooms, ∀ s ∈ rooms, r.id = a → s.id = b → r.name ≤ s.name
  /-- The walk over the ancestors ends, and gives all parents where there is no cycle. -/
  ancestors : ∀ keys, KeyOrder rooms keys → ∀ uuid, ∃ found,
    Loops (RoomTree.collectBody (RoomTree.rebuild keys rooms))
      ((RoomTree.rebuild keys rooms).ancestors uuid, []) found ∧
    (NoParentCycle rooms → FullChain (treeParent rooms) uuid found)

/-! ## The nodes of a rebuilt tree -/

section Rebuild

variable {rooms : List Room} {keys : List Uuid}

theorem isSome_lastRoom {uuid : Uuid} :
    (lastRoom rooms uuid).isSome ↔ ∃ r ∈ rooms, r.id = uuid := by
  simp [lastRoom]

theorem lastRoom_eq_some (hids : (rooms.map Room.id).Nodup) {uuid : Uuid} {room : Room} :
    lastRoom rooms uuid = some room ↔ room ∈ rooms ∧ room.id = uuid := by
  constructor
  · intro h
    exact ⟨List.mem_reverse.mp (List.mem_of_find?_eq_some h), by simpa using List.find?_some h⟩
  · rintro ⟨hmem, rfl⟩
    obtain ⟨r, hr⟩ := Option.isSome_iff_exists.mp (isSome_lastRoom.mpr ⟨room, hmem, rfl⟩)
    have hid : r.id = room.id := by simpa using List.find?_some hr
    have hrmem := List.mem_reverse.mp (List.mem_of_find?_eq_some hr)
    rw [hr, List.inj_on_of_nodup_map hids hrmem hmem hid]

theorem treeParent_eq_some (hids : (rooms.map Room.id).Nodup) {uuid parent : Uuid} :
    treeParent rooms uuid = some parent ↔
      ∃ r ∈ rooms, r.id = uuid ∧ r.isRoot = false ∧ r.parent = parent := by
  unfold treeParent
  rw [Option.bind_eq_some_iff]
  simp only [lastRoom_eq_some hids, RoomTreeNode.new]
  constructor
  · rintro ⟨r, ⟨hr, hid⟩, hparent⟩
    cases hroot : r.isRoot with
    | true => simp [hroot] at hparent
    | false => exact ⟨r, hr, hid, hroot, by simpa [hroot] using hparent⟩
  · rintro ⟨r, hr, hid, hroot, rfl⟩
    exact ⟨r, ⟨hr, hid⟩, by simp [hroot]⟩

/-- What has a parent is a room. -/
theorem exists_of_treeParent {uuid : Uuid} (h : (treeParent rooms uuid).isSome) :
    ∃ r ∈ rooms, r.id = uuid := by
  obtain ⟨parent, hparent⟩ := Option.isSome_iff_exists.mp h
  obtain ⟨r, hr, -⟩ := Option.bind_eq_some_iff.mp hparent
  exact isSome_lastRoom.mp (by rw [hr]; rfl)

namespace RoomTree

theorem get_insertRooms (rooms : List Room) (uuid : Uuid) :
    (insertRooms rooms).get uuid = (lastRoom rooms uuid).map RoomTreeNode.new := by
  induction rooms using List.reverseRecOn with
  | nil => rfl
  | append_singleton rooms room ih =>
    unfold insertRooms lastRoom at *
    rw [List.foldl_concat, Table.get_set, ih, List.reverse_concat, List.find?_cons]
    by_cases heq : uuid = room.id
    · simp [heq]
    · simp [heq, beq_eq_false_iff_ne.mpr (Ne.symm heq)]

/-- One round adds the room to the children of its parent. -/
theorem get_attach (nodes : Table Uuid RoomTreeNode) (uuid k : Uuid) :
    (attach nodes uuid).get k = (nodes.get k).map fun node =>
      if (nodes.get uuid).bind RoomTreeNode.parentId = some k then
        { node with children := node.children ++ [uuid] }
      else node := by
  unfold attach
  cases hparent : (nodes.get uuid).bind RoomTreeNode.parentId with
  | none => simp
  | some parentUuid =>
    dsimp only
    cases hnode : nodes.get parentUuid with
    | none =>
      by_cases hk : parentUuid = k
      · subst hk; simp [hnode]
      · simp [hk]
    | some parent =>
      rw [Table.get_set]
      by_cases hk : k = parentUuid
      · subst hk; simp [hnode]
      · simp [hk, Ne.symm hk]

theorem parentId_attach (nodes : Table Uuid RoomTreeNode) (uuid k : Uuid) :
    ((attach nodes uuid).get k).bind RoomTreeNode.parentId =
      (nodes.get k).bind RoomTreeNode.parentId := by
  rw [get_attach]
  cases nodes.get k with
  | none => rfl
  | some node => simp only [Option.map_some, Option.bind_some]; split <;> rfl

theorem get_foldl_attach (keys : List Uuid) (k : Uuid) : ∀ nodes : Table Uuid RoomTreeNode,
    (keys.foldl attach nodes).get k = (nodes.get k).map fun node =>
      { node with children := node.children ++ keys.filter fun uuid =>
        (nodes.get uuid).bind RoomTreeNode.parentId = some k } := by
  induction keys with
  | nil => intro nodes; simp
  | cons uuid keys ih =>
    intro nodes
    rw [List.foldl_cons, ih, get_attach, Option.map_map]
    congr 1
    funext node
    simp only [Function.comp_apply, parentId_attach, List.filter_cons, decide_eq_true_eq]
    split <;> simp

/-- The name under which a room is sorted. -/
def nameOf (rooms : List Room) (uuid : Uuid) : String :=
  ((lastRoom rooms uuid).map Room.name).getD ""

/-- **The node of a room in the tree.** -/
theorem get_rebuild (keys : List Uuid) (uuid : Uuid) :
    (rebuild keys rooms).get uuid = (lastRoom rooms uuid).map fun r =>
      { RoomTreeNode.new r with
        children := (keys.filter fun k => treeParent rooms k = some uuid).mergeSort
          fun a b => nameOf rooms a ≤ nameOf rooms b } := by
  have hname : ∀ k, nameIn ((keys.foldl attach (insertRooms rooms)).mapValues RoomTreeNode.name) k =
      nameOf rooms k := by
    intro k
    rw [nameIn, Table.get_mapValues, get_foldl_attach, get_insertRooms, nameOf]
    simp only [Option.map_map]
    rfl
  have hparent : ∀ k, ((insertRooms rooms).get k).bind RoomTreeNode.parentId = treeParent rooms k := by
    intro k
    rw [get_insertRooms, treeParent, Option.bind_map]
    rfl
  unfold get rebuild sortChildren
  simp only [Table.get_mapValues, get_foldl_attach, get_insertRooms, hname, Option.map_map]
  congr 1
  funext r
  simp only [Function.comp_apply, ← get_insertRooms, hparent]
  rfl

theorem parentId_rebuild (keys : List Uuid) (uuid : Uuid) :
    ((rebuild keys rooms).get uuid).bind RoomTreeNode.parentId = treeParent rooms uuid := by
  rw [get_rebuild, treeParent, Option.bind_map]
  rfl

theorem isSome_rebuild (keys : List Uuid) (uuid : Uuid) :
    ((rebuild keys rooms).get uuid).isSome ↔ ∃ r ∈ rooms, r.id = uuid := by
  rw [get_rebuild, Option.isSome_map, isSome_lastRoom]

theorem len_rebuild (hkeys : KeyOrder rooms keys) : (rebuild keys rooms).len = keys.length := by
  have hperm : ((rebuild keys rooms).nodes.toPairs.map Prod.fst).Perm keys := by
    refine (List.perm_ext_iff_of_nodup (Table.nodup_keys _) hkeys.nodup).mpr fun uuid => ?_
    rw [hkeys.mem, ← isSome_rebuild keys, Option.isSome_iff_exists]
    simp only [List.mem_map, Prod.exists, exists_and_right, exists_eq_right, Table.mem_toPairs]
    rfl
  rw [len, ← hperm.length_eq, List.length_map]

/-! ## The walk over the ancestors -/

/-- The iterator yields the links it may still follow, and ends. -/
theorem loops_collect (tree : RoomTree) (n : Nat) : ∀ (current : Option Uuid) (found : List Uuid),
    Loops (collectBody tree) (⟨current, n⟩, found)
      (found ++ follow (fun u => (tree.get u).bind RoomTreeNode.parentId) n current) := by
  induction n with
  | zero =>
    intro current found
    rw [follow, List.append_nil]
    exact .stop rfl
  | succ n ih =>
    intro current found
    cases current with
    | none =>
      rw [follow, List.append_nil]
      exact .stop rfl
    | some uuid =>
      have hrest := ih ((tree.get uuid).bind RoomTreeNode.parentId) (found ++ [uuid])
      rw [List.append_assoc, List.singleton_append] at hrest
      exact .next rfl hrest

theorem loops_ancestors (hkeys : KeyOrder rooms keys) (uuid : Uuid) :
    Loops (collectBody (rebuild keys rooms)) ((rebuild keys rooms).ancestors uuid, [])
      (follow (treeParent rooms) keys.length (treeParent rooms uuid)) := by
  have hloops := loops_collect (rebuild keys rooms) keys.length (treeParent rooms uuid) []
  simp only [parentId_rebuild, List.nil_append] at hloops
  rw [ancestors, parentId_rebuild, len_rebuild hkeys]
  exact hloops

end RoomTree

end Rebuild

/-! ## When the tree does not depend on the order -/

section Order

variable {rooms : List Room} {keys keys' : List Uuid}

theorem nameOf_eq (hids : (rooms.map Room.id).Nodup) {room : Room} (hroom : room ∈ rooms) :
    RoomTree.nameOf rooms room.id = room.name := by
  rw [RoomTree.nameOf, (lastRoom_eq_some hids).mpr ⟨hroom, rfl⟩]
  rfl

theorem lastRoom_perm (hids : (rooms.map Room.id).Nodup) {rooms' : List Room}
    (hperm : rooms'.Perm rooms) (uuid : Uuid) : lastRoom rooms' uuid = lastRoom rooms uuid := by
  have hids' := (hperm.map Room.id).nodup_iff.mpr hids
  refine Option.ext fun room => ?_
  rw [lastRoom_eq_some hids, lastRoom_eq_some hids', hperm.mem_iff]

theorem KeyOrder.perm (h : KeyOrder rooms keys) (h' : KeyOrder rooms keys') : keys.Perm keys' :=
  (List.perm_ext_iff_of_nodup h.nodup h'.nodup).mpr fun uuid => by rw [h.mem, h'.mem]

/-- The children of a node before they are sorted. -/
theorem mem_unsorted (hids : (rooms.map Room.id).Nodup) (hkeys : KeyOrder rooms keys)
    {uuid child : Uuid} :
    child ∈ keys.filter (fun k => treeParent rooms k = some uuid) ↔
      ∃ r ∈ rooms, r.id = child ∧ r.isRoot = false ∧ r.parent = uuid := by
  rw [List.mem_filter, decide_eq_true_iff, treeParent_eq_some hids, hkeys.mem]
  refine and_iff_right_of_imp ?_
  rintro ⟨r, hr, hid, -⟩
  exact ⟨r, hr, hid⟩

theorem rebuild_same (hids : (rooms.map Room.id).Nodup) (hnames : SiblingNamesDiffer rooms)
    {rooms' : List Room} (hperm : rooms'.Perm rooms) (hkeys : KeyOrder rooms keys)
    (hkeys' : KeyOrder rooms keys') (uuid : Uuid) :
    (RoomTree.rebuild keys' rooms').get uuid = (RoomTree.rebuild keys rooms).get uuid := by
  have hlast := lastRoom_perm hids hperm
  have hparent : treeParent rooms' = treeParent rooms := by
    funext k
    rw [treeParent, hlast, treeParent]
  have hname : RoomTree.nameOf rooms' = RoomTree.nameOf rooms := by
    funext k
    rw [RoomTree.nameOf, hlast, RoomTree.nameOf]
  rw [RoomTree.get_rebuild, RoomTree.get_rebuild, hlast, hparent, hname]
  cases hroom : lastRoom rooms uuid with
  | none => rfl
  | some p =>
    obtain ⟨hp, rfl⟩ := (lastRoom_eq_some hids).mp hroom
    have hsort := mergeSort_eq_of_perm (RoomTree.nameOf rooms)
      ((hkeys'.perm hkeys).filter fun k => treeParent rooms k = some p.id) (by
        intro a ha b hb hab
        obtain ⟨r, hr, rfl, hroot, hparent⟩ := (mem_unsorted hids hkeys').mp ha
        obtain ⟨s, hs, rfl, hroot', hparent'⟩ := (mem_unsorted hids hkeys').mp hb
        rw [nameOf_eq hids hr, nameOf_eq hids hs] at hab
        exact hnames r hr s hs hroot hroot' (hparent.trans hparent'.symm) ⟨p, hp, hparent.symm⟩ hab)
    rw [Option.map_some, Option.map_some, hsort]

/-- Two siblings of one name come in the order of the map. -/
theorem siblingNamesDiffer_of_same (hids : (rooms.map Room.id).Nodup)
    (hsame : ∀ keys keys', KeyOrder rooms keys → KeyOrder rooms keys' → ∀ uuid,
      (RoomTree.rebuild keys' rooms).get uuid = (RoomTree.rebuild keys rooms).get uuid) :
    SiblingNamesDiffer rooms := by
  intro r hr s hs hroot hroot' hparent hp hname
  obtain ⟨p, hp, hpid⟩ := hp
  by_contra hne
  -- the orders that give the one or the other of the two first
  obtain ⟨rest, hrest⟩ : ∃ rest, (r.id :: s.id :: rest).Perm (rooms.map Room.id) := by
    have hrmem : r.id ∈ rooms.map Room.id := List.mem_map_of_mem hr
    have hsmem : s.id ∈ (rooms.map Room.id).erase r.id :=
      (List.mem_erase_of_ne (Ne.symm hne)).mpr (List.mem_map_of_mem hs)
    exact ⟨_, ((List.perm_cons_erase hsmem).symm.cons r.id).trans (List.perm_cons_erase hrmem).symm⟩
  have horder : ∀ {keys : List Uuid}, keys.Perm (rooms.map Room.id) → KeyOrder rooms keys :=
    fun hkeys => ⟨hkeys.nodup_iff.mpr hids, fun uuid => by rw [hkeys.mem_iff, List.mem_map]⟩
  have hget := hsame (r.id :: s.id :: rest) (s.id :: r.id :: rest) (horder hrest)
    (horder ((List.Perm.swap _ _ _).trans hrest)) p.id
  have hrparent : treeParent rooms r.id = some p.id :=
    (treeParent_eq_some hids).mpr ⟨r, hr, rfl, hroot, hpid.symm⟩
  have hsparent : treeParent rooms s.id = some p.id :=
    (treeParent_eq_some hids).mpr ⟨s, hs, rfl, hroot', hparent.symm.trans hpid.symm⟩
  rw [RoomTree.get_rebuild, RoomTree.get_rebuild,
    (lastRoom_eq_some hids).mpr ⟨hp, rfl⟩, Option.map_some, Option.map_some, Option.some_inj] at hget
  have hchildren := congrArg RoomTreeNode.children hget
  have hfilter := congrArg (List.filter fun k => decide (RoomTree.nameOf rooms k = r.name)) hchildren
  rw [filter_mergeSort_key, filter_mergeSort_key] at hfilter
  simp only [List.filter_cons, hrparent, hsparent, nameOf_eq hids hr, nameOf_eq hids hs, hname,
    decide_true, if_true] at hfilter
  exact hne (List.cons.inj hfilter).1.symm

/-- **The tree of a room list is the same for every order exactly where siblings have distinct
names**, and all else that is said of it holds anyway. -/
theorem rebuildsTree_iff (hids : (rooms.map Room.id).Nodup) :
    RebuildsTree rooms ↔ SiblingNamesDiffer rooms := by
  constructor
  · intro h
    exact siblingNamesDiffer_of_same hids fun keys keys' => h.same rooms keys keys' (.refl _)
  · intro hnames
    refine ⟨fun rooms' keys keys' hperm hkeys hkeys' =>
      rebuild_same hids hnames hperm hkeys hkeys', fun keys _ => RoomTree.isSome_rebuild keys,
      ?_, ?_, ?_⟩
    · intro keys hkeys uuid node hget
      rw [RoomTree.get_rebuild, Option.map_eq_some_iff] at hget
      obtain ⟨p, -, rfl⟩ := hget
      refine ⟨(List.mergeSort_perm _ _).nodup_iff.mpr (hkeys.nodup.filter _), fun child => ?_⟩
      exact (List.mergeSort_perm _ _).mem_iff.trans (mem_unsorted hids hkeys)
    · intro keys hkeys uuid node hget
      rw [RoomTree.get_rebuild, Option.map_eq_some_iff] at hget
      obtain ⟨p, -, rfl⟩ := hget
      refine (pairwise_mergeSort_key (RoomTree.nameOf rooms) _).imp ?_
      rintro a b hab r hr s hs rfl rfl
      rwa [nameOf_eq hids hr, nameOf_eq hids hs] at hab
    · intro keys hkeys uuid
      refine ⟨_, RoomTree.loops_ancestors hkeys uuid, fun hacyclic => ?_⟩
      exact follow_full hacyclic (fun a ha => (hkeys.mem a).mpr (exists_of_treeParent ha)) le_rfl uuid

end Order

/-! Two rooms below Root, with two names or with one. -/

def sampleSiblings (name : String) : List Room :=
  [⟨rootRoomUuid, "Root", rootRoomUuid, none, true, [], 0⟩,
    ⟨Bytes.rep 16 1, "Games", rootRoomUuid, none, true, [], 0⟩,
    ⟨Bytes.rep 16 2, name, rootRoomUuid, none, true, [], 0⟩]

theorem rebuildsTree_sample : RebuildsTree (sampleSiblings "Music") := by
  refine (rebuildsTree_iff (by decide)).mpr ?_
  unfold SiblingNamesDiffer
  decide

/-- With one name, two orders of the map give two trees. -/
theorem not_rebuildsTree :
    ((sampleSiblings "Games").map Room.id).Nodup ∧ ¬ RebuildsTree (sampleSiblings "Games") := by
  refine ⟨by decide, fun h => ?_⟩
  have hnames := siblingNamesDiffer_of_same (by decide)
    fun keys keys' => h.same (sampleSiblings "Games") keys keys' (.refl _)
  unfold SiblingNamesDiffer at hnames
  exact absurd hnames (by decide)

end Rumble.Client
