import Mathlib.Data.String.Basic
import Mathlib.Data.List.Sort

/-! The data of `ktype.c`: descriptors, their stores, the shared array and the allocator. -/
namespace Katcp

/-- A C pointer as its address; `0` is `NULL`. Callbacks and stored values are only compared, stored
and handed back. -/
abbrev Ptr := Nat

/-- The five callbacks a type is registered with (`fn_print` … `fn_parse`), compared as
pointers. -/
structure Callbacks where
  print : Ptr
  free : Ptr
  copy : Ptr
  compare : Ptr
  parse : Ptr
deriving DecidableEq, Repr

/-- What a call does outside the registry: a free callback on a value, a log line, an inform record,
a node to print, or `fn` answering `NULL`. -/
inductive Effect where
  | free (fn value : Ptr)
  | log (msg : String)
  | inform (fields : List String)
  | visit (fn : Ptr) (flags : Int) (key : String) (value : Ptr)
  | allocNull (fn : String)
deriving DecidableEq, Repr

/-- Modelled from the spec: `avltree.c` is not among the sources. A store is the ordered map of §6,
its nodes in key order. -/
structure AvlTree where
  nodes : List (String × Ptr)
deriving DecidableEq, Repr

namespace AvlTree

/-- Modelled from the spec: insertion into the in-order node list, `none` on a key
collision. -/
def insertNode (key : String) (v : Ptr) : List (String × Ptr) → Option (List (String × Ptr))
  | [] => some [(key, v)]
  | (k, w) :: rest =>
    match compare key k with
    | .lt => some ((key, v) :: (k, w) :: rest)
    | .eq => none
    | .gt => (insertNode key v rest).map ((k, w) :: ·)

/-- Modelled from the spec: `add_node_avltree`, failing when the key is present. -/
def addNodeAvltree (t : AvlTree) (key : String) (v : Ptr) : Option AvlTree :=
  (insertNode key v t.nodes).map AvlTree.mk

/-- Modelled from the spec: the value under a key in the node list. -/
def lookup (key : String) : List (String × Ptr) → Option Ptr
  | [] => none
  | (k, w) :: rest => if key = k then some w else lookup key rest

/-- Modelled from the spec: `find_name_node_avltree` followed by `get_node_data_avltree`. -/
def findNameNodeAvltree (t : AvlTree) (key : String) : Option Ptr :=
  lookup key t.nodes

/-- Modelled from the spec: `destroy_avltree(t, fn)` hands every value to `fn` in key order; a
`NULL` callback releases nothing. -/
def destroyAvltree (t : AvlTree) (fn : Ptr) : List Effect :=
  if fn = 0 then [] else t.nodes.map fun n => .free fn n.2

/-- Modelled from the spec: `free_node_avltree(n, fn)` on a node never added hands its value to
`fn`. -/
def freeNodeAvltree (fn v : Ptr) : List Effect :=
  if fn = 0 then [] else [.free fn v]

/-- Modelled from the spec: `print_inorder_avltree` visits the nodes in key order. -/
def printInorderAvltree (t : AvlTree) (fn : Ptr) (flags : Int) : List Effect :=
  t.nodes.map fun n => .visit fn flags n.1 n.2

/-- Keys strictly ascending: the shape of an ordered map. -/
def Sorted (t : AvlTree) : Prop :=
  (t.nodes.map Prod.fst).Sorted (· < ·)

end AvlTree

/-- `struct katcp_type`: a type's name, its store and its five callbacks. -/
structure KatcpType where
  tName : String
  tTree : Option AvlTree
  tPrint : Ptr
  tFree : Ptr
  tCopy : Ptr
  tCompare : Ptr
  tParse : Ptr
deriving DecidableEq, Repr

namespace KatcpType

def callbacks (t : KatcpType) : Callbacks :=
  ⟨t.tPrint, t.tFree, t.tCopy, t.tCompare, t.tParse⟩

/-- The descriptor `register_at_id_type_katcp` builds: the copied name, an empty tree and the given
callbacks. -/
def fresh (name : String) (cb : Callbacks) : KatcpType :=
  ⟨name, some ⟨[]⟩, cb.print, cb.free, cb.copy, cb.compare, cb.parse⟩

@[simp] theorem fresh_tName (name : String) (cb : Callbacks) : (fresh name cb).tName = name :=
  rfl

@[simp] theorem fresh_callbacks (name : String) (cb : Callbacks) :
    (fresh name cb).callbacks = cb :=
  rfl

/-- What `destroy_type_katcp` releases: the values of the store, through `t_free`. -/
def destroyTypeKatcp (t : KatcpType) : List Effect :=
  match t.tTree with
  | some tree => tree.destroyAvltree t.tFree
  | none => []

end KatcpType

/-- What `s_type` points at: `NULL`, a live block of slots, or memory already handed back to the
allocator. -/
inductive TypeArray where
  | null
  | block (slots : List (Option KatcpType))
  | freed
deriving DecidableEq, Repr

/-- The registry's part of `struct katcp_shared`: `s_type` and `s_type_count`. -/
structure KatcpShared where
  sType : TypeArray
  sTypeCount : Nat
deriving DecidableEq, Repr

/-- The registry of a fresh dispatch: no array, no types. -/
def KatcpShared.empty : KatcpShared := ⟨.null, 0⟩

/-- `ts[i]`: `none` when `i` lies outside the block, which C leaves undefined. -/
def readSlot (slots : List (Option KatcpType)) (i : Int) : Option (Option KatcpType) :=
  if 0 ≤ i then slots[i.toNat]? else none

def writeSlot (slots : List (Option KatcpType)) (i : Int) (x : Option KatcpType) :
    Option (List (Option KatcpType)) :=
  if 0 ≤ i ∧ i < slots.length then some (slots.set i.toNat x) else none

/-- `ts[i]` through `s_type`: reading through `NULL` or freed memory is undefined. -/
def TypeArray.read : TypeArray → Int → Option (Option KatcpType)
  | .block slots, i => readSlot slots i
  | _, _ => none

theorem readSlot_of_nonneg {slots : List (Option KatcpType)} {i : Int} (h0 : 0 ≤ i) :
    readSlot slots i = slots[i.toNat]? := by
  simp [readSlot, h0]

theorem writeSlot_eq {slots : List (Option KatcpType)} {i : Int} (h0 : 0 ≤ i)
    (h : i < slots.length) (x : Option KatcpType) :
    writeSlot slots i x = some (slots.set i.toNat x) := by
  simp [writeSlot, h0, h]

/-- How `realloc` answers a request to grow: `NULL` with the old block intact, the block extended,
or a new block. -/
inductive Growth where
  | fail
  | inPlace
  | moved
deriving DecidableEq, Repr

/-- The allocator's answers during one call: each allocation site of `ktype.c` is reached at most
once per call. -/
structure Alloc where
  realloc : Growth
  malloc : Bool
  strdup : Bool
  createAvltree : Bool
  createNode : Bool
deriving DecidableEq, Repr

/-- An allocator that answers every request. -/
def Alloc.ok : Alloc := ⟨.inPlace, true, true, true, true⟩

/-- The first of `malloc`, `strdup(tname)` and `create_avltree()` in `create_type_katcp` that
answers `NULL`. -/
def Alloc.descriptorNull (a : Alloc) : Option String :=
  if !a.malloc then some "malloc" else if !a.strdup then some "strdup"
  else if !a.createAvltree then some "create_avltree" else none

theorem Alloc.descriptorNull_eq_none {a : Alloc} :
    a.descriptorNull = none ↔ a.malloc ∧ a.strdup ∧ a.createAvltree := by
  unfold descriptorNull
  cases a.malloc <;> cases a.strdup <;> cases a.createAvltree <;> simp

/-- The first `n` slots of a block resized to `n`, new slots `NULL`, as `register_at_id_type_katcp`
leaves them. -/
def resize (slots : List (Option KatcpType)) (n : Nat) : List (Option KatcpType) :=
  slots.take n ++ List.replicate (n - slots.length) none

@[simp] theorem length_resize (slots : List (Option KatcpType)) (n : Nat) :
    (resize slots n).length = n := by
  simp only [resize, List.length_append, List.length_take, List.length_replicate]
  omega

/-- `ts = realloc(ts, n)` growing the array: the new block, `none` for `NULL`, and what the stale
`s_type` points at. -/
def grow (ts : TypeArray) (n : Nat) (g : Growth) :
    Option (Option (List (Option KatcpType) × TypeArray)) :=
  match ts, g with
  | .freed, _ => none
  | _, .fail => some none
  | .null, _ => some (some (List.replicate n none, .null))
  | .block slots, .inPlace => some (some (resize slots n, .block (resize slots n)))
  | .block slots, .moved => some (some (resize slots n, .freed))

end Katcp
