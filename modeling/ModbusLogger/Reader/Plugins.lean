import ModbusLogger.Lib.FixedWidth
import ModbusLogger.Reader.Structs

/-!
# Decoding plugins (`reader/reader_loop/decoding_plugins`)

A plugin belongs to one value: it knows the registers of the value, finds them in a list of
registers that are going to be read together, and decodes the words that were read. A panic is
`none`.

Reading the JSON of the settings and `f64::powf` are parameters.
-/

namespace ModbusLogger.Reader

open FixedWidth

/-! ## Registers and settings -/

inductive RegType where
  | coils
  | discrete
  | input
  | holding
  deriving DecidableEq, Repr

instance : Inhabited RegType := ⟨.holding⟩

def RegType.checkType (regType : String) : RegType :=
  match regType with
  | "coils" => .coils
  | "discrete" => .discrete
  | "holding" => .holding
  | "input" => .input
  | _ => .coils

structure ComaShiftSerde where
  tag : String
  addr : Int
  regType : String
  multiplier : Int

structure SatecDoubleRegistersSerde where
  tag : String
  regType : String
  isSigned : Bool
  hiRegister : Int
  loRegister : Int
  multiplier : Int

structure BitInWordSerde where
  tag : String
  addr : Int
  bitAddr : Int
  regType : String

/-- `serde_json::from_str` for each kind of settings, and `f64::powf`. -/
structure Settings (J : Type*) where
  comaShift : J → Option ComaShiftSerde
  satec : J → Option SatecDoubleRegistersSerde
  bitInWord : J → Option BitInWordSerde
  powf : Binary64 → Binary64 → Binary64

def Settings.pow10 {J : Type*} (env : Settings J) (multiplier : Int) : Binary64 :=
  env.powf (Binary64.ofInt 10) (Binary64.ofInt multiplier)

/-- One word of a response. -/
abbrev Word := BitVec 16

/-! ## `ComaShift` -/

structure ComaShift where
  id : Int := 0
  tag : String := ""
  addr : Int := 0
  multiplier : Binary64 := default
  mType : RegType := default
  isLogging : Bool := false
  isInit : Bool := false
  posInList : Nat := 0
  deriving DecidableEq

namespace ComaShift

variable {J : Type*}

def init (env : Settings J) (p : ComaShift) (settings : J) (id : Int) (logging : Bool) :
    ComaShift × List Int :=
  match env.comaShift settings with
  | none => (p, [])
  | some initData =>
    let p := { p with
      id
      tag := initData.tag
      addr := initData.addr
      multiplier := env.pow10 initData.multiplier
      mType := .checkType initData.regType
      isLogging := logging }
    (p, [p.addr])

def findYourRegisters (p : ComaShift) (dataset : List Int) : ComaShift × Bool :=
  if p.isInit then (p, false)
  else
    match dataset.idxOf? p.addr with
    | some i => ({ p with posInList := i, isInit := true }, true)
    | none => (p, false)

/-- The measure that a word stands for. -/
def decode (p : ComaShift) (word : Word) (timestamp : Int) : ModbusMeasure where
  measureValue := Binary64.ofInt word.toInt / p.multiplier
  isLogging := p.isLogging
  valueId := asU32 p.id
  tag := p.tag
  measureTime := timestamp

def getValue (p : ComaShift) (regList : List Word) (timestamp : Int) : Option ModbusMeasure := do
  let word ← regList[p.posInList]?
  return p.decode word timestamp

def fail (p : ComaShift) (timestamp : Int) : ModbusMeasure where
  measureValue := Binary64.MIN
  isLogging := p.isLogging
  valueId := asU32 p.id
  tag := p.tag
  measureTime := timestamp

end ComaShift

/-! ## `SatecDoubleRegistersInt32` -/

structure SatecDoubleRegistersInt32 where
  hiRegister : Int := 0
  loRegister : Int := 0
  hiPosRegister : Int := 0
  loPosRegister : Int := 0
  multiplier : Binary64 := default
  id : Int := 0
  isLogging : Bool := false
  isSigned : Bool := false
  isInit : Bool := false
  mType : RegType := default
  tag : String := ""
  deriving DecidableEq

namespace SatecDoubleRegistersInt32

variable {J : Type*}

def init (env : Settings J) (p : SatecDoubleRegistersInt32) (settings : J) (id : Int)
    (logging : Bool) : SatecDoubleRegistersInt32 × List Int :=
  match env.satec settings with
  | none => (p, [])
  | some initData =>
    let p := { p with
      id
      tag := initData.tag
      hiRegister := initData.hiRegister
      loRegister := initData.loRegister
      multiplier := env.pow10 initData.multiplier
      isLogging := logging
      isSigned := initData.isSigned
      mType := .checkType initData.regType }
    (p, [p.hiRegister, p.loRegister])

/-- One turn of the loop over the dataset; the flags are `hi_found` and `lo_found`. -/
def scan (s : SatecDoubleRegistersInt32 × Bool × Bool) (entry : Int × Nat) :
    SatecDoubleRegistersInt32 × Bool × Bool :=
  let (value, i) := entry
  let (p, hiFound, loFound) := s
  let (p, hiFound) :=
    if p.hiRegister = value then ({ p with hiPosRegister := asI32 i }, true) else (p, hiFound)
  let (p, loFound) :=
    if p.loRegister = value then ({ p with loPosRegister := asI32 i }, true) else (p, loFound)
  (p, hiFound, loFound)

/-- The positions are written even when only one of the registers is found. -/
def findYourRegisters (p : SatecDoubleRegistersInt32) (dataset : List Int) :
    SatecDoubleRegistersInt32 × Bool :=
  if p.isInit then (p, false)
  else
    let (p, hiFound, loFound) := dataset.zipIdx.foldl scan (p, false, false)
    if hiFound && loFound then ({ p with isInit := true }, true) else (p, false)

/-- The measure that two words stand for. -/
def decode (p : SatecDoubleRegistersInt32) (hiWord loWord : Word) (timestamp : Int) :
    ModbusMeasure :=
  let hiData := Binary64.ofInt hiWord.toNat
  let loData := Binary64.ofInt loWord.toNat
  let measure :=
    if p.isSigned then
      let hiData := if Binary64.lt (Binary64.ofInt 32767) hiData then -hiData else hiData
      (hiData + loData) / p.multiplier
    else (hiData * Binary64.ofInt 65536 + loData) / p.multiplier
  { measureValue := measure
    isLogging := p.isLogging
    valueId := asU32 p.id
    tag := p.tag
    measureTime := timestamp }

def getValue (p : SatecDoubleRegistersInt32) (regList : List Word) (timestamp : Int) :
    Option ModbusMeasure := do
  let hiWord ← regList[asU64 p.hiPosRegister]?
  let loWord ← regList[asU64 p.loPosRegister]?
  return p.decode hiWord loWord timestamp

def fail (p : SatecDoubleRegistersInt32) (timestamp : Int) : ModbusMeasure where
  measureValue := Binary64.MIN
  isLogging := p.isLogging
  valueId := asU32 p.id
  tag := p.tag
  measureTime := timestamp

end SatecDoubleRegistersInt32

/-! ## `BitInWord` -/

structure BitInWord where
  addr : Int := 0
  tag : String := ""
  posInList : Nat := 0
  bitAddr : Int := 0
  id : Int := 0
  isLogging : Bool := false
  isInit : Bool := false
  mType : RegType := default
  deriving DecidableEq

namespace BitInWord

variable {J : Type*}

def init (env : Settings J) (p : BitInWord) (settings : J) (id : Int) (logging : Bool) :
    BitInWord × List Int :=
  match env.bitInWord settings with
  | none => (p, [])
  | some initData =>
    let p := { p with
      id
      tag := initData.tag
      addr := initData.addr
      bitAddr := initData.bitAddr
      isLogging := logging
      mType := .checkType initData.regType }
    (p, [p.addr])

def findYourRegisters (p : BitInWord) (dataset : List Int) : BitInWord × Bool :=
  if p.isInit then (p, false)
  else
    match dataset.idxOf? p.addr with
    | some i => ({ p with isInit := true, posInList := i }, true)
    | none => (p, false)

/-- The measure that a word stands for. An unchecked shift of a `u16` uses the low four bits of the
distance. -/
def decode (p : BitInWord) (word : Word) (timestamp : Int) : ModbusMeasure where
  measureValue := Binary64.ofInt ((word >>> (asU32 p.bitAddr % 16)) &&& 1).toNat
  isLogging := p.isLogging
  valueId := asU32 p.id
  tag := p.tag
  measureTime := timestamp

def getValue (p : BitInWord) (regList : List Word) (timestamp : Int) : Option ModbusMeasure := do
  let word ← regList[p.posInList]?
  return p.decode word timestamp

def fail (p : BitInWord) (timestamp : Int) : ModbusMeasure where
  measureValue := Binary64.MIN
  isLogging := p.isLogging
  valueId := asU32 p.id
  tag := p.tag
  measureTime := timestamp

end BitInWord

/-! ## The plugin of a value (`plugin_loader.rs`) -/

inductive RegisterDecodingPlugin where
  | bit (p : BitInWord)
  | satec (p : SatecDoubleRegistersInt32)
  | shift (p : ComaShift)
  deriving DecidableEq

def getPlugin (id : Int) : Except String RegisterDecodingPlugin :=
  match id with
  | 1 => .ok (.shift {})
  | 2 => .ok (.satec {})
  | 3 => .ok (.bit {})
  | _ => .error "Невідомий тип декодування"

namespace RegisterDecodingPlugin

variable {J : Type*}

def init (env : Settings J) (plugin : RegisterDecodingPlugin) (settings : J) (id : Int)
    (logging : Bool) : RegisterDecodingPlugin × List Int :=
  match plugin with
  | .bit p => (p.init env settings id logging).map .bit fun addrs => addrs
  | .satec p => (p.init env settings id logging).map .satec fun addrs => addrs
  | .shift p => (p.init env settings id logging).map .shift fun addrs => addrs

def findYourRegisters (plugin : RegisterDecodingPlugin) (dataset : List Int) :
    RegisterDecodingPlugin × Bool :=
  match plugin with
  | .bit p => (p.findYourRegisters dataset).map .bit fun found => found
  | .satec p => (p.findYourRegisters dataset).map .satec fun found => found
  | .shift p => (p.findYourRegisters dataset).map .shift fun found => found

def getValue (plugin : RegisterDecodingPlugin) (regList : List Word) (timestamp : Int) :
    Option ModbusMeasure :=
  match plugin with
  | .bit p => p.getValue regList timestamp
  | .satec p => p.getValue regList timestamp
  | .shift p => p.getValue regList timestamp

def getType (plugin : RegisterDecodingPlugin) : RegType :=
  match plugin with
  | .bit p => p.mType
  | .satec p => p.mType
  | .shift p => p.mType

def fail (plugin : RegisterDecodingPlugin) (timestamp : Int) : ModbusMeasure :=
  match plugin with
  | .bit p => p.fail timestamp
  | .satec p => p.fail timestamp
  | .shift p => p.fail timestamp

def getId (plugin : RegisterDecodingPlugin) : Int :=
  match plugin with
  | .bit p => p.id
  | .satec p => p.id
  | .shift p => p.id

end RegisterDecodingPlugin

/-- `serdeError` is the text of an error of `serde_json`. -/
def checkJson {J : Type*} (env : Settings J) (serdeError : J → String) (id : Int) (jsonData : J) :
    Except String Unit :=
  match id with
  | 1 =>
    if (env.comaShift jsonData).isSome then .ok ()
    else .error s!"Помилка json ComaShift: {serdeError jsonData}"
  | 2 =>
    if (env.satec jsonData).isSome then .ok ()
    else .error s!"Помилка json SatecDoubleRegisters: {serdeError jsonData}"
  | 3 =>
    if (env.bitInWord jsonData).isSome then .ok ()
    else .error s!"Помилка json BitInWord: {serdeError jsonData}"
  | _ => .error "Невідомий тип декодування"

/-- Settings that pass are read by the plugin of their type. -/
theorem checkJson_ok {J : Type*} {env : Settings J} {serdeError : J → String} {id : Int}
    {jsonData : J} (h : checkJson env serdeError id jsonData = .ok ()) (valueId : Int)
    (logging : Bool) : ∃ plugin, getPlugin id = .ok plugin ∧
      (plugin.init env jsonData valueId logging).2 ≠ [] := by
  unfold checkJson at h
  split at h
  · split at h
    · next hread =>
        refine ⟨.shift {}, rfl, ?_⟩
        obtain ⟨initData, hinit⟩ := Option.isSome_iff_exists.mp hread
        simp [RegisterDecodingPlugin.init, ComaShift.init, hinit]
    · cases h
  · split at h
    · next hread =>
        refine ⟨.satec {}, rfl, ?_⟩
        obtain ⟨initData, hinit⟩ := Option.isSome_iff_exists.mp hread
        simp [RegisterDecodingPlugin.init, SatecDoubleRegistersInt32.init, hinit]
    · cases h
  · split at h
    · next hread =>
        refine ⟨.bit {}, rfl, ?_⟩
        obtain ⟨initData, hinit⟩ := Option.isSome_iff_exists.mp hread
        simp [RegisterDecodingPlugin.init, BitInWord.init, hinit]
    · cases h
  · cases h

end ModbusLogger.Reader
