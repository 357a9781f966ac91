import Katcp.Ktype.Search

/-! The operations of `ktype.c` on the shared registry, the calls on it, and runs of them. -/
namespace Katcp

/-- The loop `for (; i > tid; i--) ts[i] = ts[i-1];` of `register_at_id_type_katcp`: the
block after it, and the final `i`. -/
def shiftUp (tid : Int) (slots : List (Option KatcpType)) (i : Int) :
    Option (List (Option KatcpType) × Int) :=
  if h : tid < i then do
    let x ← readSlot slots (i - 1)
    let slots ← writeSlot slots i x
    shiftUp tid slots (i - 1)
  else some (slots, i)
termination_by (i - tid).toNat
decreasing_by simp_wf; omega

/-- `register_at_id_type_katcp`: grow the array, build the descriptor, shift the slots from `tid` up
and store it; a failure after `realloc` skips `s->s_type = ts`. -/
def registerAtIdTypeKatcp (s : KatcpShared) (a : Alloc) (tid : Int) (tname : String)
    (cb : Callbacks) : Option (Int × KatcpShared × List Effect) :=
  match grow s.sType (s.sTypeCount + 1) a.realloc with
  | none => none
  | some none => some (-1, s, [.allocNull "realloc"])
  | some (some (slots, stale)) =>
    match a.descriptorNull with
    | some fn => some (-1, { s with sType := stale }, [.allocNull fn])
    | none => do
      let (slots, i) ← shiftUp tid slots s.sTypeCount
      let slots ← writeSlot slots i (some (.fresh tname cb))
      return (i, ⟨.block slots, s.sTypeCount + 1⟩, [])

/-- `register_name_type_katcp`: `-1` for a name already present, otherwise registration at the
insertion point the search encoded. -/
def registerNameTypeKatcp (s : KatcpShared) (a : Alloc) (name : String) (cb : Callbacks) :
    Option (Int × KatcpShared × List Effect) := do
  let pos ← binarySearchTypeListKatcp s.sType s.sTypeCount name
  if 0 ≤ pos then some (-1, s, []) else
  registerAtIdTypeKatcp s a ((pos + 1) * (-1)) name cb

/-- The loop `for (; pos < last; pos++) ts[pos] = ts[pos+1];` of `deregister_type_katcp`. -/
def shiftDown (last : Int) (slots : List (Option KatcpType)) (pos : Int) :
    Option (List (Option KatcpType)) :=
  if h : pos < last then do
    let x ← readSlot slots (pos + 1)
    let slots ← writeSlot slots pos x
    shiftDown last slots (pos + 1)
  else some slots
termination_by (last - pos).toNat
decreasing_by simp_wf; omega

/-- `deregister_type_katcp`: destroy the descriptor, close the gap and shrink the array, as glibc's
`realloc` does (`NULL` for size `0`). -/
def deregisterTypeKatcp (s : KatcpShared) (name : String) :
    Option (Int × KatcpShared × List Effect) := do
  let size := s.sTypeCount
  let pos ← binarySearchTypeListKatcp s.sType size name
  if pos < 0 then some (-1, s, []) else do
  let .block slots := s.sType | none
  let t ← readSlot slots pos
  let (released, slots) ← match t with
    | some t => (writeSlot slots pos none).map (t.destroyTypeKatcp, ·)
    | none => some ([], slots)
  let slots ← shiftDown ((size : Int) - 1) slots pos
  if size - 1 = 0 then some (-1, { s with sType := .freed }, released ++ [.allocNull "realloc"])
  else some (0, ⟨.block (slots.take (size - 1)), size - 1⟩, released)

/-- `create_node_avltree` and `add_node_avltree` into the tree at `pos`; a refused node is freed
with `fn_free`. -/
def addDataKatcp (s : KatcpShared) (a : Alloc) (slots : List (Option KatcpType)) (pos : Int)
    (t : KatcpType) (tree : AvlTree) (dName : String) (dData fnFree : Ptr) :
    Option (Int × KatcpShared × List Effect) :=
  if !a.createNode then some (-1, s, [.allocNull "create_node_avltree"]) else
  match tree.addNodeAvltree dName dData with
  | none => some (-1, s, AvlTree.freeNodeAvltree fnFree dData)
  | some tree =>
    (writeSlot slots pos (some { t with tTree := some tree })).map fun slots =>
      (0, { s with sType := .block slots }, [])

/-- `store_data_type_katcp` from `/*now pos is the position of the type in the list*/` on. -/
def storeAtKatcp (s : KatcpShared) (a : Alloc) (pos : Int) (tName dName : String) (dData : Ptr)
    (cb : Callbacks) : Option (Int × KatcpShared × List Effect) := do
  let .block slots := s.sType | none
  let some t ← readSlot slots pos | some (-1, s, [])
  if t.callbacks ≠ cb then
    some (-1, s, [.log s!"callbacks for data with key <{dName}> dont match type {tName}\n"])
  else match t.tTree with
  | some tree => addDataKatcp s a slots pos t tree dName dData cb.free
  | none =>
    if a.createAvltree then do
      let t := { t with tTree := some ⟨[]⟩ }
      let slots ← writeSlot slots pos (some t)
      addDataKatcp { s with sType := .block slots } a slots pos t ⟨[]⟩ dName dData cb.free
    else some (-1, s, [.allocNull "create_avltree"])

/-- `store_data_type_katcp`: find the type, registering it when new, then store the value under
`d_name`. -/
def storeDataTypeKatcp (s : KatcpShared) (a : Alloc) (tName dName : String) (dData : Ptr)
    (cb : Callbacks) : Option (Int × KatcpShared × List Effect) := do
  let pos ← binarySearchTypeListKatcp s.sType s.sTypeCount tName
  if 0 ≤ pos then storeAtKatcp s a pos tName dName dData cb else do
  let (pos, s, es) ← registerAtIdTypeKatcp s a ((pos + 1) * (-1)) tName cb
  if pos < 0 then some (-1, s, es ++ [.log s!"could not create new type {tName}\n"]) else
  (storeAtKatcp s a pos tName dName dData cb).map fun (r, s, es') => (r, s, es ++ es')

def findNameIdTypeKatcp (s : KatcpShared) (str : String) : Option Int :=
  binarySearchTypeListKatcp s.sType s.sTypeCount str

/-- `find_name_type_katcp`: the descriptor named `str`, or `NULL` with a log line. -/
def findNameTypeKatcp (s : KatcpShared) (str : String) :
    Option (Option KatcpType × List Effect) := do
  let pos ← findNameIdTypeKatcp s str
  if pos < 0 then some (none, [.log "requested type not defined"]) else
  (s.sType.read pos).map (·, [])

/-- `get_id_type_katcp`: `NULL` for `id >= s_type_count`, otherwise `ts[id]`. -/
def getIdTypeKatcp (s : KatcpShared) (id : Int) : Option (Option KatcpType) :=
  if (s.sTypeCount : Int) ≤ id then some none else s.sType.read id

/-- `get_key_data_type_katcp`: the value under `key` in the type's tree, `NULL` when either is
missing. -/
def getKeyDataTypeKatcp (s : KatcpShared) (type key : String) : Option (Ptr × List Effect) := do
  let (t, es) ← findNameTypeKatcp s type
  let some t := t | some (0, es)
  let some tree := t.tTree | some (0, es)
  some ((tree.findNameNodeAvltree key).getD 0, es)

/-- `print_type_katcp`: the type's name, then its nodes through `t_print`, with flag `1` for
the default printer. -/
def printTypeKatcp (t : Option KatcpType) (flags : Int) : List Effect :=
  match t with
  | none => []
  | some t => .inform ["katcp type:", t.tName] ::
    match t.tTree with
    | some tree => tree.printInorderAvltree t.tPrint (if t.tPrint ≠ 0 then flags else 1)
    | none => []

/-- `ts[0]`, …, `ts[n-1]` read in order; undefined past the block. -/
def readSlots : TypeArray → Nat → Option (List (Option KatcpType))
  | _, 0 => some []
  | .block slots, n => if n ≤ slots.length then some (slots.take n) else none
  | _, _ => none

def printTypesKatcp (s : KatcpShared) : Option (List Effect) :=
  if s.sType = .null then some [] else
  (readSlots s.sType s.sTypeCount).map fun ts => ts.flatMap (printTypeKatcp · 0)

/-- What the first loop of `destroy_type_list_katcp` releases from one slot. -/
def releaseSlot : Option KatcpType → List Effect
  | some t => t.destroyTypeKatcp
  | none => []

/-- `destroy_type_list_katcp`: release every store, free the descriptors and the array. -/
def destroyTypeListKatcp (s : KatcpShared) : Option (KatcpShared × List Effect) :=
  match s.sType with
  | .null => some (s, [])
  | .freed => none
  | .block slots =>
    (readSlots (.block slots) s.sTypeCount).map fun ts => (.empty, ts.flatMap releaseSlot)

/-- The calls a caller makes on the registry (`register_at_id_type_katcp` is only reached through
them). -/
inductive Call where
  | registerNameType (name : String) (cb : Callbacks)
  | deregisterType (name : String)
  | storeDataType (tName dName : String) (dData : Ptr) (cb : Callbacks)
  | destroyTypeList
  | findNameIdType (str : String)
  | findNameType (str : String)
  | getIdType (id : Int)
  | getKeyDataType (type key : String)
  | printTypes
deriving DecidableEq, Repr

inductive Reply where
  | int (r : Int)
  | type (t : Option KatcpType)
  | data (p : Ptr)
  | unit
deriving DecidableEq, Repr

/-- One call on the registry: its reply, the new registry and its effects; `none` where C is
undefined. -/
def exec (s : KatcpShared) (a : Alloc) : Call → Option (Reply × KatcpShared × List Effect)
  | .registerNameType name cb =>
    (registerNameTypeKatcp s a name cb).map fun (r, s, es) => (.int r, s, es)
  | .deregisterType name => (deregisterTypeKatcp s name).map fun (r, s, es) => (.int r, s, es)
  | .storeDataType t k v cb =>
    (storeDataTypeKatcp s a t k v cb).map fun (r, s, es) => (.int r, s, es)
  | .destroyTypeList => (destroyTypeListKatcp s).map fun (s, es) => (.unit, s, es)
  | .findNameIdType str => (findNameIdTypeKatcp s str).map fun r => (.int r, s, [])
  | .findNameType str => (findNameTypeKatcp s str).map fun (t, es) => (.type t, s, es)
  | .getIdType id => (getIdTypeKatcp s id).map fun t => (.type t, s, [])
  | .getKeyDataType type key =>
    (getKeyDataTypeKatcp s type key).map fun (p, es) => (.data p, s, es)
  | .printTypes => (printTypesKatcp s).map fun es => (.unit, s, es)

/-- One call of a run: the call, the allocator's answers, and what came back. -/
structure Event where
  call : Call
  alloc : Alloc
  reply : Reply
  effects : List Effect

/-- `Run s es t`: from `s` the calls of `es`, each defined, lead to `t`. -/
inductive Run : KatcpShared → List Event → KatcpShared → Prop
  | nil (s : KatcpShared) : Run s [] s
  | snoc {s t u : KatcpShared} {es : List Event} {e : Event} :
    Run s es t → exec t e.alloc e.call = some (e.reply, u, e.effects) → Run s (es ++ [e]) u

/-- Registries some run from the empty one reaches. -/
def Reachable (s : KatcpShared) : Prop :=
  ∃ es, Run .empty es s

end Katcp
