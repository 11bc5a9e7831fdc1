import Mathlib.Tactic
import Mathlib.Data.Nat.Digits.Lemmas

/-! Universally unique identifiers, over what the uuid library says of its two text functions. -/

namespace DagScheduler.Graphs

structure UUID where
  bytes : BitVec 128
  deriving DecidableEq

namespace UUID

def null : UUID := ⟨0⟩

def isInitialized (u : UUID) : Bool := u.bytes != 0

lemma eq_null {u : UUID} (hu : ¬ u.isInitialized) : u = null := by
  obtain ⟨b⟩ := u
  simpa [isInitialized, null] using hu

end UUID

/-- `uuid_parse` and `uuid_unparse_lower`, which writes texts without a null character. -/
structure UuidLibrary where
  uuidParse : String → Option (BitVec 128)
  uuidUnparseLower : BitVec 128 → String
  terminated : ∀ b, '\x00' ∉ (uuidUnparseLower b).toList
  parse_unparse : ∀ b, uuidParse (uuidUnparseLower b) = some b
  parse_empty : uuidParse "" = none

/-- What a C function sees of `s.c_str()`. -/
def cStr (s : String) : String := String.ofList (s.toList.takeWhile (· != '\x00'))

namespace UuidLibrary

variable (lib : UuidLibrary) {u v : UUID}

def asString (u : UUID) : String :=
  if u.isInitialized then lib.uuidUnparseLower u.bytes else ""

/-- The constructor from a text; `none` where it throws. -/
def ofString (s : String) : Option UUID := (lib.uuidParse (cStr s)).map UUID.mk

def eq (lhs rhs : UUID) : Bool :=
  if !lhs.isInitialized && !rhs.isInitialized then true
  else if !lhs.isInitialized || !rhs.isInitialized then false
  else lib.asString lhs == lib.asString rhs

lemma cStr_append {s : String} (hs : '\x00' ∉ s.toList) {tail : List Char}
    (htail : ∀ c ∈ tail.head?, c = '\x00') : cStr (String.ofList (s.toList ++ tail)) = s := by
  have hall : ∀ c ∈ s.toList, (c != '\x00') = true := by
    intro c hc
    exact bne_iff_ne.mpr fun h => hs (h ▸ hc)
  have hstop : tail.takeWhile (· != '\x00') = [] := by
    cases tail with
    | nil => rfl
    | cons c tail => simp [htail c rfl]
  rw [cStr, String.toList_ofList, List.takeWhile_append_of_pos hall, hstop, List.append_nil, String.ofList_toList]

lemma null_notMem_asString (u : UUID) : '\x00' ∉ (lib.asString u).toList := by
  unfold asString
  split
  · exact lib.terminated _
  · simp

lemma ofString_append {tail : List Char} (htail : ∀ c ∈ tail.head?, c = '\x00') :
    lib.ofString (String.ofList ((lib.asString u).toList ++ tail)) = some u ↔ u.isInitialized = true := by
  rw [ofString, cStr_append (lib.null_notMem_asString u) htail]
  cases hu : u.isInitialized with
  | true => simp [asString, hu, lib.parse_unparse]
  | false => simp [asString, hu, lib.parse_empty]

lemma ofString_asString (hu : u.isInitialized) : lib.ofString (lib.asString u) = some u := by
  have h : lib.ofString (String.ofList ((lib.asString u).toList ++ [])) = some u :=
    (lib.ofString_append (by simp)).mpr hu
  rwa [List.append_nil, String.ofList_toList] at h

lemma asString_injective : Function.Injective lib.asString := by
  intro u v h
  by_cases hu : u.isInitialized
  · have hv : lib.ofString (lib.asString v) = some u := h ▸ lib.ofString_asString hu
    by_cases hv' : v.isInitialized
    · rw [lib.ofString_asString hv'] at hv
      exact (Option.some.inj hv).symm
    · rw [asString, if_neg hv'] at hv
      simp [ofString, cStr, lib.parse_empty] at hv
  · by_cases hv' : v.isInitialized
    · have hu' : lib.ofString (lib.asString u) = some v := h ▸ lib.ofString_asString hv'
      rw [asString, if_neg hu] at hu'
      simp [ofString, cStr, lib.parse_empty] at hu'
    · rw [UUID.eq_null hu, UUID.eq_null hv']

lemma eq_iff : lib.eq u v = true ↔ u = v := by
  unfold eq
  by_cases hu : u.isInitialized <;> by_cases hv : v.isInitialized
  · simp [hu, hv, lib.asString_injective.eq_iff]
  · simp only [hu, hv, Bool.not_true, Bool.not_false, Bool.false_and, Bool.false_or,
      Bool.false_eq_true, if_false, if_true, false_iff]
    exact fun he => hv (he ▸ hu)
  · simp only [hu, hv, Bool.not_true, Bool.not_false, Bool.and_false, Bool.true_or,
      Bool.false_eq_true, if_false, if_true, false_iff]
    exact fun he => hu (he ▸ hv)
  · have hn := UUID.eq_null hu
    have hn' := UUID.eq_null hv
    subst hn hn'
    simp [UUID.isInitialized, UUID.null]

end UuidLibrary

/-! The library as it is run: 32 lower case digits in groups of 8, 4, 4, 4 and 12. -/

namespace UUID

def digit (n i : ℕ) : Char := Nat.digitChar (n / 16 ^ i % 16)

/-- The `k` digits above the lowest `i`, the most significant first. -/
def group (n i : ℕ) : ℕ → List Char
  | 0 => []
  | k + 1 => digit n (i + k) :: group n i k

def uuidUnparseLower (b : BitVec 128) : String :=
  let n := b.toNat
  String.ofList (group n 24 8 ++ '-' :: (group n 20 4 ++ '-' :: (group n 16 4 ++
    '-' :: (group n 12 4 ++ '-' :: group n 0 12))))

def digitValue (c : Char) : Option ℕ :=
  if '0' ≤ c ∧ c ≤ '9' then some (c.toNat - '0'.toNat)
  else if 'a' ≤ c ∧ c ≤ 'f' then some (c.toNat - 'a'.toNat + 10)
  else if 'A' ≤ c ∧ c ≤ 'F' then some (c.toNat - 'A'.toNat + 10)
  else none

/-- Reads `k` digits, continuing the number `acc`. -/
def parseGroup : ℕ → List Char → ℕ → Option (ℕ × List Char)
  | 0, cs, acc => some (acc, cs)
  | _ + 1, [], _ => none
  | k + 1, c :: cs, acc => (digitValue c).bind fun d => parseGroup k cs (16 * acc + d)

def parseDash : List Char → Option (List Char)
  | '-' :: cs => some cs
  | _ => none

def uuidParse (s : String) : Option (BitVec 128) := do
  let (n, cs) ← parseGroup 8 s.toList 0
  let (n, cs) ← parseGroup 4 (← parseDash cs) n
  let (n, cs) ← parseGroup 4 (← parseDash cs) n
  let (n, cs) ← parseGroup 4 (← parseDash cs) n
  let (n, cs) ← parseGroup 12 (← parseDash cs) n
  if cs = [] then some (BitVec.ofNat 128 n) else none

lemma digitValue_digitChar {d : ℕ} (hd : d < 16) : digitValue (Nat.digitChar d) = some d := by
  interval_cases d <;> decide

lemma parseGroup_group (n i k : ℕ) (rest : List Char) (acc : ℕ) :
    parseGroup k (group n i k ++ rest) acc = some (16 ^ k * acc + n / 16 ^ i % 16 ^ k, rest) := by
  induction k generalizing acc with
  | zero => simp [parseGroup, group, Nat.mod_one]
  | succ k ih =>
    have hd : digitValue (digit n (i + k)) = some (n / 16 ^ (i + k) % 16) :=
      digitValue_digitChar (Nat.mod_lt _ (by norm_num))
    have hmod : n / 16 ^ i % 16 ^ (k + 1) =
        n / 16 ^ i % 16 ^ k + 16 ^ k * (n / 16 ^ (i + k) % 16) := by
      rw [pow_succ, Nat.mod_mul, Nat.div_div_eq_div_mul, ← pow_add]
    simp only [group, List.cons_append, parseGroup, hd, Option.bind_some, ih, hmod,
      Option.some.injEq, Prod.mk.injEq, and_true]
    ring

lemma uuidParse_uuidUnparseLower (b : BitVec 128) : uuidParse (uuidUnparseLower b) = some b := by
  have hb : b.toNat < 2 ^ 128 := b.isLt
  have hn : b.toNat / 16 ^ 24 % 16 ^ 8 = b.toNat / 16 ^ 24 :=
    Nat.mod_eq_of_lt (by omega)
  simp only [uuidUnparseLower, uuidParse, String.toList_ofList, parseGroup_group, parseDash,
    Option.bind_eq_bind, Option.bind_some, hn]
  have hlast := parseGroup_group b.toNat 0 12 []
  simp only [List.append_nil] at hlast
  simp only [hlast, Option.bind_some, if_true, Option.some.injEq]
  have hsum : (16 ^ 12 * (16 ^ 4 * (16 ^ 4 * (16 ^ 4 * (16 ^ 8 * 0 + b.toNat / 16 ^ 24) +
      b.toNat / 16 ^ 20 % 16 ^ 4) + b.toNat / 16 ^ 16 % 16 ^ 4) +
      b.toNat / 16 ^ 12 % 16 ^ 4) + b.toNat / 16 ^ 0 % 16 ^ 12) = b.toNat := by
    omega
  rw [hsum, BitVec.ofNat_toNat, BitVec.setWidth_eq]

lemma null_notMem_group (n i k : ℕ) : '\x00' ∉ group n i k := by
  induction k with
  | zero => simp [group]
  | succ k ih =>
    have hdigit : '\x00' ≠ digit n (i + k) := by
      have hd : n / 16 ^ (i + k) % 16 < 16 := Nat.mod_lt _ (by norm_num)
      unfold digit
      interval_cases n / 16 ^ (i + k) % 16 <;> decide
    simp [group, hdigit, ih]

def libuuid : UuidLibrary where
  uuidParse := uuidParse
  uuidUnparseLower := uuidUnparseLower
  terminated b := by simp [uuidUnparseLower, null_notMem_group]
  parse_unparse := uuidParse_uuidUnparseLower
  parse_empty := by decide

def asString (u : UUID) : String := libuuid.asString u

def ofString (s : String) : Option UUID := libuuid.ofString s

def eq (lhs rhs : UUID) : Bool := libuuid.eq lhs rhs

lemma ofString_asString {u : UUID} (hu : u.isInitialized) : ofString u.asString = some u :=
  libuuid.ofString_asString hu

lemma asString_injective : Function.Injective asString := libuuid.asString_injective

@[simp] lemma eq_iff {u v : UUID} : u.eq v = true ↔ u = v := libuuid.eq_iff

/-- For any such library, identifiers are told apart by their texts, as `operator==` and the searches do;
and a text that goes on after a null character is read like what stands before it: as the identifier that
wrote it, unless it is the null one. -/
theorem text_format (lib : UuidLibrary) :
    (∀ u v : UUID, lib.asString u = lib.asString v ↔ u = v) ∧ (∀ u v : UUID, lib.eq u v = true ↔ u = v) ∧
    ∀ (u : UUID) (tail : List Char), (∀ c ∈ tail.head?, c = '\x00') →
      (lib.ofString (String.ofList ((lib.asString u).toList ++ tail)) = some u ↔ u.isInitialized = true) :=
  ⟨fun _ _ => lib.asString_injective.eq_iff, fun _ _ => lib.eq_iff, fun _ _ htail => lib.ofString_append htail⟩

theorem text_format_sample :
    ofString (String.ofList ((asString ⟨10⟩).toList ++ '\x00' :: "and more".toList)) = some ⟨10⟩ ↔
      isInitialized ⟨10⟩ = true :=
  (text_format libuuid).2.2 ⟨10⟩ ('\x00' :: "and more".toList) (by simp)

end UUID

end DagScheduler.Graphs
