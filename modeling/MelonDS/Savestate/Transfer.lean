import MelonDS.Savestate.Stream

/-!
# Variables of a savestate

The same calls write a state and read it back: `transfer` is the call for one
variable, and a section is its magic followed by its variables. `bytes` and `read`
say what a variable looks like in the file, and the lemmas say that each call
appends the first to what is written or takes the second from what is left to read.
-/

namespace MelonDS.Savestate

inductive Var
  | array (data : List U8)
  | v8 (v : U8)
  | v16 (v : U16)
  | v32 (v : U32)
  | v64 (v : U64)
  | bool (v : Bool)
  | bool32 (v : Bool)
deriving DecidableEq

/-- What of a variable the calling code fixes before it is read. -/
inductive Kind
  | array (len : ℕ)
  | v8
  | v16
  | v32
  | v64
  | bool
  | bool32
deriving DecidableEq

def Kind.size : Kind → ℕ
  | .array len => len
  | .v8 | .bool => 1
  | .v16 => 2
  | .v32 | .bool32 => 4
  | .v64 => 8

namespace Var

def kind : Var → Kind
  | .array data => .array data.length
  | .v8 _ => .v8
  | .v16 _ => .v16
  | .v32 _ => .v32
  | .v64 _ => .v64
  | .bool _ => .bool
  | .bool32 _ => .bool32

def bytes : Var → List U8
  | .array data => data
  | .v8 v => toBytes 1 v.toNat
  | .v16 v => toBytes 2 v.toNat
  | .v32 v => toBytes 4 v.toNat
  | .v64 v => toBytes 8 v.toNat
  | .bool v => toBytes 1 (if v then 1 else 0)
  | .bool32 v => toBytes 4 (if v then 1 else 0)

/-- A variable after `data` was read into it. -/
def read (data : List U8) : Var → Var
  | .array _ => .array data
  | .v8 _ => .v8 (BitVec.ofNat 8 (ofBytes data))
  | .v16 _ => .v16 (BitVec.ofNat 16 (ofBytes data))
  | .v32 _ => .v32 (BitVec.ofNat 32 (ofBytes data))
  | .v64 _ => .v64 (BitVec.ofNat 64 (ofBytes data))
  | .bool _ => .bool (BitVec.ofNat 8 (ofBytes data) != 0)
  | .bool32 _ => .bool32 (BitVec.ofNat 32 (ofBytes data) != 0)

@[simp] theorem length_bytes (v : Var) : v.bytes.length = v.kind.size := by
  cases v with
  | array data => rfl
  | v8 | v16 | v32 | v64 | bool | bool32 => exact length_toBytes _ _

theorem read_bytes {dest v : Var} (h : dest.kind = v.kind) : dest.read v.bytes = v := by
  cases v with
  | array data =>
    cases dest with
    | array _ => rfl
    | v8 | v16 | v32 | v64 | bool | bool32 => cases h
  | v8 v =>
    cases dest with
    | v8 _ => exact congrArg Var.v8 (ofNat_ofBytes_toBytes (k := 1) rfl v)
    | array | v16 | v32 | v64 | bool | bool32 => cases h
  | v16 v =>
    cases dest with
    | v16 _ => exact congrArg Var.v16 (ofNat_ofBytes_toBytes (k := 2) rfl v)
    | array | v8 | v32 | v64 | bool | bool32 => cases h
  | v32 v =>
    cases dest with
    | v32 _ => exact congrArg Var.v32 (ofNat_ofBytes_toBytes (k := 4) rfl v)
    | array | v8 | v16 | v64 | bool | bool32 => cases h
  | v64 v =>
    cases dest with
    | v64 _ => exact congrArg Var.v64 (ofNat_ofBytes_toBytes (k := 8) rfl v)
    | array | v8 | v16 | v32 | bool | bool32 => cases h
  | bool v =>
    cases dest with
    | bool _ => cases v <;> rfl
    | array | v8 | v16 | v32 | v64 | bool32 => cases h
  | bool32 v =>
    cases dest with
    | bool32 _ => cases v <;> rfl
    | array | v8 | v16 | v32 | v64 | bool => cases h

end Var

variable (realloc : U32 → Bool)

/-- The call for one variable: the variable and the stream after it. -/
def transfer (v : Var) (s : Savestate) : Var × Savestate :=
  match v with
  | .array data => (s.varArray realloc data).map .array id
  | .v8 v => (s.var8 realloc v).map .v8 id
  | .v16 v => (s.var16 realloc v).map .v16 id
  | .v32 v => (s.var32 realloc v).map .v32 id
  | .v64 v => (s.var64 realloc v).map .v64 id
  | .bool v => (s.varBool realloc v).map .bool id
  | .bool32 v => (s.bool32 realloc v).map .bool32 id

def transferAll : List Var → Savestate → List Var × Savestate
  | [], s => ([], s)
  | v :: vs, s =>
    let (v, s) := s.transfer realloc v
    let (vs, s) := transferAll vs s
    (v :: vs, s)

/-- A section as the calling code goes through it. -/
structure Section where
  magic : U32
  vars : List Var
deriving DecidableEq

def doSection (c : Section) (s : Savestate) : List Var × Savestate :=
  transferAll realloc c.vars (s.enterSection realloc c.magic)

def doSections : List Section → Savestate → List (List Var) × Savestate
  | [], s => ([], s)
  | c :: cs, s =>
    let (vs, s) := s.doSection realloc c
    let (vss, s) := doSections cs s
    (vs :: vss, s)

/-! A stream that has met an error -/

variable {realloc}

theorem varArray_of_error {s : Savestate} (h : s.error = true) (data : List U8) :
    s.varArray realloc data = (data, s) := by
  rw [varArray, h, Bool.true_or, Bool.true_or, if_pos rfl]

theorem var_of_error {s : Savestate} (h : s.error = true) {k : ℕ} (v : BitVec (8 * k)) :
    s.var realloc k v = (v, s) := by
  rw [var, varArray_of_error h]
  exact Prod.ext (ofNat_ofBytes_toBytes rfl v) rfl

theorem transfer_of_error {s : Savestate} (h : s.error = true) (v : Var) :
    s.transfer realloc v = (v, s) := by
  cases v with
  | array data => rw [transfer, varArray_of_error h]; rfl
  | v8 v => rw [transfer, var8, var_of_error h]; rfl
  | v16 v => rw [transfer, var16, var_of_error h]; rfl
  | v32 v => rw [transfer, var32, var_of_error h]; rfl
  | v64 v => rw [transfer, var64, var_of_error h]; rfl
  | bool v =>
    rw [transfer, varBool, var8, var8, var_of_error h, var_of_error h]
    simp only [h, if_true, ite_self]
    rfl
  | bool32 v =>
    rw [transfer, bool32, var32, var32, var_of_error h, var_of_error h]
    simp only [h, if_true, ite_self]
    rfl

theorem transferAll_of_error {s : Savestate} (h : s.error = true) (vs : List Var) :
    s.transferAll realloc vs = (vs, s) := by
  induction vs with
  | nil => rfl
  | cons v vs ih =>
    rw [transferAll, transfer_of_error h]
    simp only [ih]

theorem enterSection_of_error {s : Savestate} (h : s.error = true) (magic : U32) :
    s.enterSection realloc magic = s := by
  rw [enterSection, h, Bool.true_or, if_pos rfl]

theorem doSection_of_error {s : Savestate} (h : s.error = true) (c : Section) :
    s.doSection realloc c = (c.vars, s) := by
  rw [doSection, enterSection_of_error h, transferAll_of_error h]

theorem doSections_of_error {s : Savestate} (h : s.error = true) (cs : List Section) :
    s.doSections realloc cs = (cs.map Section.vars, s) := by
  induction cs with
  | nil => rfl
  | cons c cs ih =>
    rw [doSections, doSection_of_error h]
    simp only [ih, List.map_cons]

theorem error_of_varArray {s : Savestate} {data : List U8}
    (h : (s.varArray realloc data).2.error = false) : s.error = false := by
  cases hs : s.error with
  | false => rfl
  | true =>
    rw [varArray_of_error hs, hs] at h
    exact h

theorem error_of_doSections {s : Savestate} {cs : List Section}
    (h : (s.doSections realloc cs).2.error = false) : s.error = false := by
  cases hs : s.error with
  | false => rfl
  | true =>
    rw [doSections_of_error hs, hs] at h
    exact h

theorem error_of_transferAll {s : Savestate} {vs : List Var}
    (h : (s.transferAll realloc vs).2.error = false) : s.error = false := by
  cases hs : s.error with
  | false => rfl
  | true =>
    rw [transferAll_of_error hs, hs] at h
    exact h

end MelonDS.Savestate
