import Mathlib.Logic.Function.Basic
import Netloom.Lib.Bytes

/-!
# Kernel programs on packets

The instructions of eBPF a packet filter needs, on a machine whose registers know
what they point to: the stack, the context, a map or an element of a map. A
wrong access is a fault, as the verifier would refuse it. A load beyond the end
of the packet ends the program with code zero.
-/
namespace Netloom.Bpf

open List Bytes
open BitVec (toNat_ofNat)

inductive Reg where
  | r0 | r1 | r2 | r3 | r4 | r5 | r6 | r7 | r8 | r9 | fp
  deriving DecidableEq, Repr

inductive Size where
  | byte | half | word | dword
  deriving DecidableEq, Repr

def Size.bytes : Size → Nat
  | byte => 1
  | half => 2
  | word => 4
  | dword => 8

inductive Instr where
  | movReg (dst src : Reg)
  | movImm (dst : Reg) (imm : Int)
  | addImm (dst : Reg) (imm : Int)
  | andImm (dst : Reg) (imm : Int)
  | lshImm (dst : Reg) (bits : Nat)
  | hostToBE (dst : Reg) (size : Size)
  | jeqImm (dst : Reg) (imm : Int) (label : String)
  | jneImm (dst : Reg) (imm : Int) (label : String)
  | jsetImm (dst : Reg) (imm : Int) (label : String)
  | ja (label : String)
  | storeMem (dst : Reg) (offset : Int) (src : Reg) (size : Size)
  | loadMem (dst src : Reg) (offset : Int) (size : Size)
  | addAtomic (dst src : Reg) (size : Size) (offset : Int)
  | loadAbs (offset : Nat) (size : Size)
  | loadInd (dst src : Reg) (offset : Nat) (size : Size)
  | loadMapPtr (dst : Reg) (fd : Int)
  | mapLookupElem
  | symbol (name : String)
  | ret
  deriving DecidableEq, Repr

/-- The memory a program can write to. Elements of maps are named by nodes. -/
inductive Region (Node : Type) where
  | stack
  | element (node : Node)
  deriving DecidableEq

inductive Value (Node : Type) where
  | unset
  | scalar (word : BitVec 64)
  | pointer (region : Region Node) (offset : Int)
  | context
  | map (fd : Int)

/-- What a program runs on. -/
structure Env (Node : Type) where
  host : Endian
  packet : List Byte
  /-- The fields of the context, by offset. -/
  context : Int → Option (BitVec 64)
  keySize : Nat
  valueSize : Nat
  find : Int → List Byte → Option Node

structure State (Node : Type) where
  regs : Reg → Value Node
  memory : Region Node → Int → Byte

/-- What an instruction does: go on, go to a symbol, end the program, or fail. -/
inductive Outcome (Node : Type) where
  | next (state : State Node)
  | jump (label : String) (state : State Node)
  | exit (code : BitVec 64) (state : State Node)
  | fault

/-- The bytes at an offset of a packet, if they are all there. -/
def slice (packet : List Byte) (offset n : Nat) : Option (List Byte) :=
  if offset + n ≤ packet.length then some ((packet.drop offset).take n) else none

theorem length_of_slice {packet bytes : List Byte} {offset n : Nat}
    (found : slice packet offset n = some bytes) : bytes.length = n := by
  unfold slice at found
  split at found
  · next fits =>
    cases found
    rw [length_take, length_drop]
    omega
  · simp at found

/-! ### States -/

namespace State

variable {Node : Type} [DecidableEq Node]

def set (s : State Node) (r : Reg) (v : Value Node) : State Node :=
  { s with regs := Function.update s.regs r v }

/-- After a call the argument registers are unset. -/
def clobber (s : State Node) : State Node :=
  { s with regs := fun r => if r ∈ [.r1, .r2, .r3, .r4, .r5] then .unset else s.regs r }

def load (s : State Node) (region : Region Node) (offset : Int) (n : Nat) : List Byte :=
  (List.range n).map fun i => s.memory region (offset + (i : Nat))

def store (s : State Node) (region : Region Node) (offset : Int) (bytes : List Byte) : State Node :=
  { s with memory := fun region' at' =>
      if region' = region ∧ offset ≤ at' then
        (bytes[(at' - offset).toNat]?).getD (s.memory region' at')
      else s.memory region' at' }

omit [DecidableEq Node] in
@[simp] theorem regs_set (s : State Node) (r r' : Reg) (v : Value Node) :
    (s.set r v).regs r' = if r' = r then v else s.regs r' := by
  simp [set, Function.update_apply]

omit [DecidableEq Node] in
@[simp] theorem regs_clobber (s : State Node) (r : Reg) :
    s.clobber.regs r = if r ∈ [.r1, .r2, .r3, .r4, .r5] then .unset else s.regs r := rfl

@[simp] theorem regs_store (s : State Node) (region : Region Node) (offset : Int)
    (bytes : List Byte) : (s.store region offset bytes).regs = s.regs := rfl

omit [DecidableEq Node] in
@[simp] theorem load_set (s : State Node) (r : Reg) (v : Value Node) (region : Region Node)
    (offset : Int) (n : Nat) : (s.set r v).load region offset n = s.load region offset n := rfl

omit [DecidableEq Node] in
@[simp] theorem load_clobber (s : State Node) (region : Region Node) (offset : Int) (n : Nat) :
    s.clobber.load region offset n = s.load region offset n := rfl

omit [DecidableEq Node] in
@[simp] theorem length_load (s : State Node) (region : Region Node) (offset : Int) (n : Nat) :
    (s.load region offset n).length = n := by
  simp [load]

variable (s : State Node) (region : Region Node)

variable (offset : Int)

omit [DecidableEq Node] in
theorem load_add (m n : Nat) :
    s.load region offset (m + n) = s.load region offset m ++ s.load region (offset + m) n := by
  rw [load, range_add, map_append, map_map]
  simp [load, Function.comp_def, add_assoc]

/-- What was stored is loaded again. -/
theorem load_store (bytes : List Byte) :
    (s.store region offset bytes).load region offset bytes.length = bytes := by
  apply ext_getElem?
  intro i
  by_cases below : i < bytes.length
  · simp [load, store, below]
  · simp [load, below]

/-- Stores elsewhere do not matter. -/
theorem load_store_of_apart {region region' : Region Node} {offset offset' : Int}
    {bytes : List Byte} {n : Nat} (apart : region' ≠ region ∨ offset' + n ≤ offset ∨
      offset + bytes.length ≤ offset') :
    (s.store region offset bytes).load region' offset' n = s.load region' offset' n := by
  apply map_congr_left
  intro i member
  have below := mem_range.mp member
  simp only [store]
  split
  · grind
  · rfl

/-- A store replaces a piece of what can be loaded. -/
theorem load_store_piece (before old later : List Byte) {offset place : Int} {n : Nat}
    {bytes : List Byte} (held : s.load region offset n = before ++ (old ++ later))
    (same : bytes.length = old.length) (here : place = offset + before.length) :
    (s.store region place bytes).load region offset n = before ++ (bytes ++ later) := by
  have total := congrArg length held
  rw [length_load, length_append, length_append, ← same] at total
  rw [total, load_add, load_add] at held ⊢
  obtain ⟨first, held⟩ := append_inj held (by simp)
  obtain ⟨-, last⟩ := append_inj held (by simp [same])
  subst here
  rw [load_store_of_apart s (.inr (.inl le_rfl)), load_store,
    load_store_of_apart s (.inr (.inr le_rfl)), first, last]

end State

/-! ### Steps -/

section Machine

variable {Node : Type} [DecidableEq Node] (env : Env Node)

def Env.inBounds : Region Node → Int → Nat → Bool
  | .stack, offset, n => -512 ≤ offset && offset + n ≤ 0
  | .element _, offset, n => 0 ≤ offset && offset + n ≤ env.valueSize

variable (s : State Node) (dst : Reg)

/-- A load from the packet, in network order. -/
def loadPacket (offset : Nat) (size : Size) : Outcome Node :=
  match s.regs .r6 with
  | .context =>
    match slice env.packet offset size.bytes with
    | some bytes => .next (s.clobber.set dst (.scalar (BitVec.ofNat 64 (Bytes.value bytes))))
    | none => .exit 0 s
  | _ => .fault

/-- Arithmetic on a number. -/
def alu (f : BitVec 64 → BitVec 64) : Outcome Node :=
  match s.regs dst with
  | .scalar word => .next (s.set dst (.scalar (f word)))
  | _ => .fault

/-- Comparison with a constant; a pointer is never null. -/
def equalsImm (imm : Int) : Option Bool :=
  match s.regs dst with
  | .scalar word => some (word = BitVec.ofInt 64 imm)
  | .pointer .. => if imm = 0 then some false else none
  | _ => none

def step : Instr → Outcome Node
  | .movReg dst src => .next (s.set dst (s.regs src))
  | .movImm dst imm => .next (s.set dst (.scalar (BitVec.ofInt 64 imm)))
  | .addImm dst imm =>
    match s.regs dst with
    | .scalar word => .next (s.set dst (.scalar (word + BitVec.ofInt 64 imm)))
    | .pointer region offset => .next (s.set dst (.pointer region (offset + imm)))
    | _ => .fault
  | .andImm dst imm => alu s dst (· &&& BitVec.ofInt 64 imm)
  | .lshImm dst bits => alu s dst (· <<< bits)
  | .hostToBE dst size =>
    alu s dst fun word => BitVec.ofNat 64 (Bytes.toNetwork env.host size.bytes word.toNat)
  | .jeqImm dst imm label =>
    match equalsImm s dst imm with
    | some equal => if equal then .jump label s else .next s
    | none => .fault
  | .jneImm dst imm label =>
    match equalsImm s dst imm with
    | some equal => if equal then .next s else .jump label s
    | none => .fault
  | .jsetImm dst imm label =>
    match s.regs dst with
    | .scalar word => if word &&& BitVec.ofInt 64 imm ≠ 0 then .jump label s else .next s
    | _ => .fault
  | .ja label => .jump label s
  | .storeMem dst offset src size =>
    match s.regs dst, s.regs src with
    | .pointer region base, .scalar word =>
      if env.inBounds region (base + offset) size.bytes then
        .next (s.store region (base + offset) (Bytes.native env.host size.bytes word.toNat))
      else .fault
    | _, _ => .fault
  | .loadMem dst src offset size =>
    match s.regs src with
    | .pointer region base =>
      if env.inBounds region (base + offset) size.bytes then
        .next (s.set dst (.scalar (BitVec.ofNat 64
          (Bytes.ofNative env.host (s.load region (base + offset) size.bytes)))))
      else .fault
    | .context =>
      match env.context offset with
      | some word => .next (s.set dst (.scalar word))
      | none => .fault
    | _ => .fault
  | .addAtomic dst src size offset =>
    match s.regs dst, s.regs src with
    | .pointer region base, .scalar word =>
      if env.inBounds region (base + offset) size.bytes then
        let old := Bytes.ofNative env.host (s.load region (base + offset) size.bytes)
        .next (s.store region (base + offset)
          (Bytes.native env.host size.bytes (old + word.toNat)))
      else .fault
    | _, _ => .fault
  | .loadAbs offset size => loadPacket env s .r0 offset size
  | .loadInd dst src offset size =>
    match s.regs src with
    | .scalar word => loadPacket env s dst (word.toNat + offset) size
    | _ => .fault
  | .loadMapPtr dst fd => .next (s.set dst (.map fd))
  | .mapLookupElem =>
    match s.regs .r1, s.regs .r2 with
    | .map fd, .pointer .stack base =>
      if env.inBounds .stack base env.keySize then
        match env.find fd (s.load .stack base env.keySize) with
        | some node => .next (s.clobber.set .r0 (.pointer (.element node) 0))
        | none => .next (s.clobber.set .r0 (.scalar 0))
      else .fault
    | _, _ => .fault
  | .symbol _ => .next s
  | .ret =>
    match s.regs .r0 with
    | .scalar word => .exit word s
    | _ => .fault

/-- The instructions from a symbol on. -/
def after (program : List Instr) (label : String) : List Instr :=
  (program.dropWhile fun instr => instr ≠ .symbol label).drop 1

/-- A run of at most `fuel` instructions. -/
def exec (program : List Instr) : Nat → List Instr → State Node → Option (BitVec 64 × State Node)
  | 0, _, _ => none
  | _ + 1, [], _ => none
  | fuel + 1, instr :: rest, s =>
    match step env s instr with
    | .next s' => exec program fuel rest s'
    | .jump label s' => exec program fuel (after program label) s'
    | .exit code s' => some (code, s')
    | .fault => none

/-- The state at the entry of a program: the context in `r1`, the frame pointer, and
whatever stands in memory. -/
def entry (memory : Region Node → Int → Byte) : State Node where
  regs := fun
    | .r1 => .context
    | .fp => .pointer .stack 0
    | _ => .unset
  memory

/-! ### Rules -/

variable (program : List Instr)

/-- The program ends with the code in the final state. -/
def Returns (rest : List Instr) (s : State Node) (code : BitVec 64) (final : State Node) : Prop :=
  ∃ fuel, exec env program fuel rest s = some (code, final)

variable {env program}

/-- One instruction of a run. -/
theorem returns_cons (instr : Instr) (rest : List Instr) (s : State Node) (code : BitVec 64)
    (final : State Node) :
    Returns env program (instr :: rest) s code final ↔
      match step env s instr with
      | .next s' => Returns env program rest s' code final
      | .jump label s' => Returns env program (after program label) s' code final
      | .exit code' s' => code' = code ∧ s' = final
      | .fault => False := by
  constructor
  · rintro ⟨fuel, ran⟩
    cases fuel with
    | zero => simp [exec] at ran
    | succ fuel =>
      rw [exec] at ran
      cases stepped : step env s instr with
      | next s' | jump label s' => exact ⟨fuel, by simpa [stepped] using ran⟩
      | exit code' s' => simpa [stepped] using ran
      | fault => simp [stepped] at ran
  · cases stepped : step env s instr with
    | next s' | jump label s' =>
      rintro ⟨fuel, ran⟩
      exact ⟨fuel + 1, by simpa [exec, stepped] using ran⟩
    | exit code' s' =>
      rintro ⟨rfl, rfl⟩
      exact ⟨1, by simp [exec, stepped]⟩
    | fault => exact False.elim

/-- A program that faults does not end. -/
theorem not_returns_of_fault {instr : Instr} {rest : List Instr} {s final : State Node}
    {code : BitVec 64} (stepped : step env s instr = .fault) :
    ¬ Returns env program (instr :: rest) s code final := by
  rw [returns_cons, stepped]
  exact id

/-- Loads from the packet want the context in `r6`. -/
theorem loadAbs_without_context {s : State Node} {offset : Nat} {size : Size}
    (unset : s.regs .r6 = .unset) : step env s (.loadAbs offset size) = .fault := by
  simp [step, loadPacket, unset]

/-! ### Numbers in registers -/

variable {imm : Int}

theorem eq_imm {n : Nat} (small : n < 2 ^ 63) (bounded : -2 ^ 63 ≤ imm ∧ imm < 2 ^ 63) :
    BitVec.ofNat 64 n = BitVec.ofInt 64 imm ↔ (n : Int) = imm := by
  rw [← BitVec.ofInt_natCast, ← BitVec.toInt_inj,
    BitVec.toInt_ofInt_eq_self (by omega) (by omega) (by omega),
    BitVec.toInt_ofInt_eq_self (by omega) (by omega) (by omega)]

theorem and_imm {n : Nat} (k : Nat) (small : n < 2 ^ 64) (short : k < 64) :
    BitVec.ofNat 64 n &&& BitVec.ofInt 64 ((2 ^ k - 1 : Nat) : Int) = BitVec.ofNat 64 (n % 2 ^ k) := by
  have bound : 2 ^ k < 2 ^ 64 := Nat.pow_lt_pow_right (by norm_num) short
  apply BitVec.eq_of_toNat_eq
  rw [BitVec.ofInt_natCast, BitVec.toNat_and, toNat_ofNat, toNat_ofNat,
    toNat_ofNat, Nat.mod_eq_of_lt small, Nat.mod_eq_of_lt (show 2 ^ k - 1 < 2 ^ 64 by omega),
    Nat.and_two_pow_sub_one_eq_mod, Nat.mod_eq_of_lt (lt_of_le_of_lt (Nat.mod_le _ _) small)]

theorem shl_imm (n k : Nat) : BitVec.ofNat 64 n <<< k = BitVec.ofNat 64 (n * 2 ^ k) := by
  apply BitVec.eq_of_toNat_eq
  rw [BitVec.toNat_shiftLeft, toNat_ofNat, toNat_ofNat, Nat.shiftLeft_eq,
    Nat.mod_mul_mod]

theorem Size.dvd (size : Size) : 256 ^ size.bytes ∣ 2 ^ 64 := by
  cases size <;> decide

variable {offset : Nat} {size : Size}

/-- What is loaded from a packet fits a register. -/
theorem value_slice_lt {packet bytes : List Byte} {n : Nat}
    (found : slice packet offset n = some bytes) : Bytes.value bytes < 2 ^ (8 * n) := by
  have small := value_lt bytes
  rw [length_of_slice found] at small
  rwa [show 256 = 2 ^ 8 by norm_num, ← pow_mul] at small

/-! ### Rules for each instruction

What has to hold before an instruction for a property of code and final state to hold
after the run.
-/

/-- The program ends, and code and final state have the property. -/
def Wp (env : Env Node) (program rest : List Instr) (s : State Node)
    (Post : BitVec 64 → State Node → Prop) : Prop :=
  ∃ code final, Returns env program rest s code final ∧ Post code final

variable {rest : List Instr} {s : State Node} {Post : BitVec 64 → State Node → Prop}

theorem Wp.mono {Post' : BitVec 64 → State Node → Prop} (wp : Wp env program rest s Post)
    (implies : ∀ code final, Post code final → Post' code final) : Wp env program rest s Post' := by
  obtain ⟨code, final, returns, holds⟩ := wp
  exact ⟨code, final, returns, implies code final holds⟩

variable {instr : Instr}

private theorem wp_of_next {s' : State Node} (stepped : step env s instr = .next s')
    (later : Wp env program rest s' Post) : Wp env program (instr :: rest) s Post := by
  obtain ⟨code, final, returns, holds⟩ := later
  exact ⟨code, final, (returns_cons ..).mpr (by rwa [stepped]), holds⟩

variable {label : String}

private theorem wp_of_jump {s' : State Node} (stepped : step env s instr = .jump label s')
    (later : Wp env program (after program label) s' Post) :
    Wp env program (instr :: rest) s Post := by
  obtain ⟨code, final, returns, holds⟩ := later
  exact ⟨code, final, (returns_cons ..).mpr (by rwa [stepped]), holds⟩

private theorem wp_of_exit {code : BitVec 64} (stepped : step env s instr = .exit code s)
    (holds : Post code s) :
    Wp env program (instr :: rest) s Post :=
  ⟨code, s, (returns_cons ..).mpr (by rw [stepped]; exact ⟨rfl, rfl⟩), holds⟩

variable {dst src : Reg}

theorem wp_movReg (v : Value Node) (operand : s.regs src = v)
    (later : Wp env program rest (s.set dst v) Post) :
    Wp env program (.movReg dst src :: rest) s Post :=
  wp_of_next (by simp [step, operand]) later

theorem wp_movImm (later : Wp env program rest (s.set dst (.scalar (BitVec.ofInt 64 imm))) Post) :
    Wp env program (.movImm dst imm :: rest) s Post :=
  wp_of_next rfl later

variable (region : Region Node) (n : Nat)

theorem wp_addImm (offset : Int) (operand : s.regs dst = .pointer region offset)
    (later : Wp env program rest (s.set dst (.pointer region (offset + imm))) Post) :
    Wp env program (.addImm dst imm :: rest) s Post :=
  wp_of_next (by simp [step, operand]) later

theorem wp_andImm (word result : BitVec 64) (operand : s.regs dst = .scalar word)
    (computes : word &&& BitVec.ofInt 64 imm = result)
    (later : Wp env program rest (s.set dst (.scalar result)) Post) :
    Wp env program (.andImm dst imm :: rest) s Post :=
  wp_of_next (by simp only [step, alu, operand, computes]) later

theorem wp_lshImm {bits : Nat} (word result : BitVec 64) (operand : s.regs dst = .scalar word)
    (computes : word <<< bits = result)
    (later : Wp env program rest (s.set dst (.scalar result)) Post) :
    Wp env program (.lshImm dst bits :: rest) s Post :=
  wp_of_next (by simp only [step, alu, operand, computes]) later

section

variable (operand : s.regs dst = .scalar (BitVec.ofNat 64 n))

include operand

theorem wp_hostToBE (later : Wp env program rest (s.set dst
      (.scalar (BitVec.ofNat 64 (Bytes.toNetwork env.host size.bytes n)))) Post) :
    Wp env program (.hostToBE dst size :: rest) s Post :=
  wp_of_next (by simp only [step, alu, operand, toNat_ofNat,
    toNetwork_mod_of_dvd _ _ size.dvd]) later

theorem wp_jeqImm (small : n < 2 ^ 63) (bounded : -2 ^ 63 ≤ imm ∧ imm < 2 ^ 63)
    (taken : (n : Int) = imm → Wp env program (after program label) s Post)
    (later : (n : Int) ≠ imm → Wp env program rest s Post) :
    Wp env program (.jeqImm dst imm label :: rest) s Post := by
  have same := eq_imm small bounded
  by_cases equal : (n : Int) = imm
  · exact wp_of_jump (by simp [step, equalsImm, operand, same, equal])
      (taken equal)
  · exact wp_of_next (by simp [step, equalsImm, operand, same, equal]) (later equal)

theorem wp_jneImm (small : n < 2 ^ 63) (bounded : -2 ^ 63 ≤ imm ∧ imm < 2 ^ 63)
    (taken : (n : Int) ≠ imm → Wp env program (after program label) s Post)
    (later : (n : Int) = imm → Wp env program rest s Post) :
    Wp env program (.jneImm dst imm label :: rest) s Post := by
  have same := eq_imm small bounded
  by_cases equal : (n : Int) = imm
  · exact wp_of_next (by simp [step, equalsImm, operand, same, equal])
      (later equal)
  · exact wp_of_jump (by simp [step, equalsImm, operand, same, equal]) (taken equal)

end

variable (word : BitVec 64)

/-- A pointer is not null. -/
theorem wp_jeqImm_pointer (offset : Int)
    (operand : s.regs dst = .pointer region offset) (later : Wp env program rest s Post) :
    Wp env program (.jeqImm dst 0 label :: rest) s Post :=
  wp_of_next (by simp [step, equalsImm, operand]) later

theorem wp_ja (later : Wp env program (after program label) s Post) :
    Wp env program (.ja label :: rest) s Post :=
  wp_of_jump rfl later

theorem wp_storeMem {offset : Int} (base : Int) (n : Nat)
    (address : s.regs dst = .pointer region base)
    (operand : s.regs src = .scalar (BitVec.ofNat 64 n))
    (inside : env.inBounds region (base + offset) size.bytes)
    (later : Wp env program rest (s.store region (base + offset)
      (Bytes.native env.host size.bytes n)) Post) :
    Wp env program (.storeMem dst offset src size :: rest) s Post :=
  wp_of_next (by simp only [step, address, operand, inside, if_true, toNat_ofNat,
    native_mod_of_dvd _ _ size.dvd]) later

theorem wp_loadMem {offset : Int} (base : Int)
    (address : s.regs src = .pointer region base)
    (inside : env.inBounds region (base + offset) size.bytes)
    (later : Wp env program rest (s.set dst (.scalar (BitVec.ofNat 64
      (Bytes.ofNative env.host (s.load region (base + offset) size.bytes))))) Post) :
    Wp env program (.loadMem dst src offset size :: rest) s Post :=
  wp_of_next (by simp [step, address, inside]) later

theorem wp_loadMem_context {offset : Int} (word : BitVec 64) (address : s.regs src = .context)
    (field : env.context offset = some word)
    (later : Wp env program rest (s.set dst (.scalar word)) Post) :
    Wp env program (.loadMem dst src offset size :: rest) s Post :=
  wp_of_next (by simp [step, address, field]) later

theorem wp_addAtomic {offset : Int} (region : Region Node) (base : Int) (n : Nat)
    (address : s.regs dst = .pointer region base)
    (operand : s.regs src = .scalar (BitVec.ofNat 64 n)) (small : n < 2 ^ 64)
    (inside : env.inBounds region (base + offset) size.bytes)
    (later : Wp env program rest (s.store region (base + offset) (Bytes.native env.host size.bytes
      (Bytes.ofNative env.host (s.load region (base + offset) size.bytes) + n))) Post) :
    Wp env program (.addAtomic dst src size offset :: rest) s Post :=
  wp_of_next (by simp only [step, address, operand, inside, if_true, toNat_ofNat,
    Nat.mod_eq_of_lt small]) later

private theorem wp_of_loadPacket (stepped : step env s instr = loadPacket env s dst offset size)
    (context : s.regs .r6 = .context) (short : slice env.packet offset size.bytes = none → Post 0 s)
    (later : ∀ bytes, slice env.packet offset size.bytes = some bytes → Wp env program rest
      (s.clobber.set dst (.scalar (BitVec.ofNat 64 (Bytes.value bytes)))) Post) :
    Wp env program (instr :: rest) s Post := by
  cases found : slice env.packet offset size.bytes with
  | none => exact wp_of_exit (by simp [stepped, loadPacket, context, found]) (short found)
  | some bytes =>
    exact wp_of_next (by simp only [stepped, loadPacket, context, found]) (later bytes found)

theorem wp_loadAbs (context : s.regs .r6 = .context)
    (short : slice env.packet offset size.bytes = none → Post 0 s)
    (later : ∀ bytes, slice env.packet offset size.bytes = some bytes → Wp env program rest
      (s.clobber.set .r0 (.scalar (BitVec.ofNat 64 (Bytes.value bytes)))) Post) :
    Wp env program (.loadAbs offset size :: rest) s Post :=
  wp_of_loadPacket rfl context short later

theorem wp_loadInd (operand : s.regs src = .scalar (BitVec.ofNat 64 n))
    (small : n < 2 ^ 64) (context : s.regs .r6 = .context)
    (short : slice env.packet (n + offset) size.bytes = none → Post 0 s)
    (later : ∀ bytes, slice env.packet (n + offset) size.bytes = some bytes →
      Wp env program rest
        (s.clobber.set dst (.scalar (BitVec.ofNat 64 (Bytes.value bytes)))) Post) :
    Wp env program (.loadInd dst src offset size :: rest) s Post :=
  wp_of_loadPacket (by simp only [step, operand, toNat_ofNat, Nat.mod_eq_of_lt small])
    context short later

theorem wp_loadMapPtr {fd : Int} (later : Wp env program rest (s.set dst (.map fd)) Post) :
    Wp env program (.loadMapPtr dst fd :: rest) s Post :=
  wp_of_next rfl later

theorem wp_mapLookupElem (fd base : Int) (map : s.regs .r1 = .map fd)
    (address : s.regs .r2 = .pointer .stack base) (inside : env.inBounds .stack base env.keySize)
    (missing : env.find fd (s.load .stack base env.keySize) = none →
      Wp env program rest (s.clobber.set .r0 (.scalar 0)) Post)
    (found : ∀ node, env.find fd (s.load .stack base env.keySize) = some node →
      Wp env program rest (s.clobber.set .r0 (.pointer (.element node) 0)) Post) :
    Wp env program (.mapLookupElem :: rest) s Post := by
  cases result : env.find fd (s.load .stack base env.keySize) with
  | none =>
    exact wp_of_next (by simp only [step, map, address, inside, result, if_true]) (missing result)
  | some node =>
    exact wp_of_next (by simp only [step, map, address, inside, result, if_true]) (found node result)

theorem wp_symbol {name : String} (later : Wp env program rest s Post) :
    Wp env program (.symbol name :: rest) s Post :=
  wp_of_next rfl later

theorem wp_ret (result : s.regs .r0 = .scalar word) (holds : Post word s) :
    Wp env program (.ret :: rest) s Post :=
  wp_of_exit (by simp [step, result]) holds

end Machine

end Netloom.Bpf
