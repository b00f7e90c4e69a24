import EcoMint.Shared

/-!
# Contract values

The values that calls of contract functions carry and return, as the API and
the host see them.  A contract function reads its arguments by position, each as
a value of the parameter's type and of no other.

What comes back is read as the services read it.  A struct is the vector of its
fields in the order of their declaration; the client of the oracle alone asks
for fields by name.  A variant with data is the vector of its name and its data.
How a variant without data comes back is not settled by the services, which
index tables of statuses with `Number` of it and declare it as its name elsewhere:
`VariantForm` has the two ways in which it can arrive.
-/

namespace EcoMint

inductive ScVal
  | void
  | u32 (value : Nat)
  | u64 (value : Nat)
  | i128 (value : Int)
  | symbol (value : Symbol)
  | bytes (value : List UInt8)
  | address (value : Address)
  | vec (items : List ScVal)

/-! ## The values of the contract types -/

/-- A fixed-width value as the call carries it. -/
def BytesN.toScVal {n : Nat} (b : BytesN n) : ScVal := .bytes b.bytes

/-- How a variant without data comes back from a call: as the vector of its name, or
as its position in the enum, which is what the tests of the API build. -/
inductive VariantForm
  | named
  | numbered
deriving DecidableEq, Repr

/-- `Number` of a variant as it arrives; the array of a name gives `NaN`, which is `none`. -/
def VariantForm.number : VariantForm → Nat → Option Nat
  | named, _ => none
  | numbered, position => some position

/-- A variant without data. -/
def unitVariant (variants : VariantForm) (name : Symbol) (position : Nat) : ScVal :=
  match variants with
  | .named => .vec [.symbol name]
  | .numbered => .u32 position

/-- Metrics as a variant with its data; where one variant has data, all are named. -/
def BiodiversityMetrics.toScVal : BiodiversityMetrics → ScVal
  | .absent => .vec [.symbol "Absent"]
  | .present habitat species units =>
      .vec [.symbol "Present", .vec [.i128 habitat, .i128 species, .i128 units]]

def CreditType.toScVal (variants : VariantForm) : CreditType → ScVal
  | .carbon => unitVariant variants "Carbon" 0
  | .biodiversity => unitVariant variants "Biodiversity" 1
  | .basket => unitVariant variants "Basket" 2
  | .blueCarbon => unitVariant variants "BlueCarbon" 3

def ProjectStatus.toScVal (variants : VariantForm) : ProjectStatus → ScVal
  | .pending => unitVariant variants "Pending" 0
  | .approved => unitVariant variants "Approved" 1
  | .rejected => unitVariant variants "Rejected" 2
  | .inactive => unitVariant variants "Inactive" 3

def ReportStatus.toScVal (variants : VariantForm) : ReportStatus → ScVal
  | .pending => unitVariant variants "Pending" 0
  | .verified => unitVariant variants "Verified" 1
  | .challenged => unitVariant variants "Challenged" 2
  | .rejected => unitVariant variants "Rejected" 3

def BondConfig.toScVal (variants : VariantForm) (config : BondConfig) : ScVal := .vec [
  config.projectId.toScVal, .i128 config.faceValue,
  .vec (config.couponSchedule.map ScVal.u64), config.creditType.toScVal variants,
  .u64 config.maturityDate, .i128 config.totalSupply]

namespace ScVal

/-! ## Reading an argument -/

/-- The address that a value is, if it is one. -/
def asAddress : ScVal → Option Address
  | address a => some a
  | _ => none

/-- The unsigned number that a value is, if it is one. -/
def asU64 : ScVal → Option Nat
  | u64 n => some n
  | _ => none

/-- The signed number that a value is, if it is one. -/
def asI128 : ScVal → Option Int
  | i128 n => some n
  | _ => none

/-- The symbol that a value is, if it is one. -/
def asSymbol : ScVal → Option Symbol
  | symbol s => some s
  | _ => none

/-- The bytes that a value is, if there are `n` of them. -/
def asBytesN (n : Nat) : ScVal → Option (BytesN n)
  | bytes bs => if h : bs.length = n then some ⟨bs, h⟩ else none
  | _ => none

/-- The metrics that a value is, if it is a variant of them. -/
def asBiodiversityMetrics : ScVal → Option BiodiversityMetrics
  | vec [symbol "Absent"] => some .absent
  | vec [symbol "Present", vec [i128 habitat, i128 species, i128 units]] =>
      some (.present habitat species units)
  | _ => none

@[simp] theorem asAddress_eq_some {v : ScVal} {a : Address} :
    v.asAddress = some a ↔ v = address a := by
  cases v <;> simp [asAddress]

@[simp] theorem asU64_eq_some {v : ScVal} {n : Nat} : v.asU64 = some n ↔ v = u64 n := by
  cases v <;> simp [asU64]

@[simp] theorem asI128_eq_some {v : ScVal} {n : Int} : v.asI128 = some n ↔ v = i128 n := by
  cases v <;> simp [asI128]

@[simp] theorem asSymbol_eq_some {v : ScVal} {s : Symbol} :
    v.asSymbol = some s ↔ v = symbol s := by
  cases v <;> simp [asSymbol]

@[simp] theorem asBytesN_eq_some {n : Nat} {v : ScVal} {b : BytesN n} :
    v.asBytesN n = some b ↔ v = b.toScVal := by
  obtain ⟨bs, hbs⟩ := b
  cases v with
  | bytes value =>
      simp only [asBytesN, BytesN.toScVal, bytes.injEq]
      split <;> simp
      rintro rfl
      contradiction
  | _ => simp [asBytesN, BytesN.toScVal]

@[simp] theorem asBiodiversityMetrics_eq_some {v : ScVal} {m : BiodiversityMetrics} :
    v.asBiodiversityMetrics = some m ↔ v = m.toScVal := by
  constructor
  · intro h
    unfold asBiodiversityMetrics at h
    split at h
    · cases h
      rfl
    · cases h
      rfl
    · cases h
  · rintro rfl
    cases m <;> rfl

end ScVal

/-! ## Values in the API -/

/-- What `scValToNative` makes of a value. -/
inductive Native
  | null
  | number (value : Nat)
  | bigint (value : Int)
  | text (value : String)
  | buffer (value : List UInt8)
  | array (items : List Native)

section

variable (addressText : Address → String)

mutual

def scValToNative : ScVal → Native
  | .void => .null
  | .u32 value => .number value
  | .u64 value => .bigint value
  | .i128 value => .bigint value
  | .symbol value => .text value
  | .bytes value => .buffer value
  | .address value => .text (addressText value)
  | .vec items => .array (scValsToNatives items)

/-- The values of an array, each as the service gets it. -/
def scValsToNatives : List ScVal → List Native
  | [] => []
  | item :: rest => scValToNative item :: scValsToNatives rest

end

end

namespace Native

/-- The items of an array; nothing else has any. -/
def items : Native → Option (List Native)
  | array items => some items
  | _ => none

/-- `Buffer.from(value)` of a buffer or a text; numbers are refused. -/
def toBuffer : Native → Option (List UInt8)
  | buffer bytes => some bytes
  | text value => some value.toUTF8.toList
  | _ => none

/-- `BigInt(value)` of an integer. -/
def toInteger : Native → Option Int
  | number value => some value
  | bigint value => some value
  | _ => none

/-- `Number(value)` of a count. -/
def toCount : Native → Option Nat
  | number value => some value
  | bigint value => some value.toNat
  | _ => none

/-- `value.toString()` of a text. -/
def toText : Native → Option String
  | text value => some value
  | _ => none

end Native

end EcoMint
