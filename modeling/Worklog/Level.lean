/-!
# Levels

How important an event is, from `error` (most) to `vomit` (least), and the threshold test that
decides whether an event is shown. Levels are ordered by `Level.rank`, which is also the number
that stands for a level on the wire.

* `Level.ofRank?_rank`, `Level.rank_of_ofRank?` — the ranks `0` to `7` are exactly the levels.
* `Level.rank_injective` — different levels have different ranks.
-/

namespace Worklog

inductive Level where
  | error
  | warn
  | notice
  | info
  | talkative
  | chatty
  | debug
  | vomit
deriving DecidableEq, Repr, Inhabited

namespace Level

/-! ## Ranks -/

/-- The place of a level in the order; a lower rank is more important. -/
def rank : Level → Nat
  | error => 0
  | warn => 1
  | notice => 2
  | info => 3
  | talkative => 4
  | chatty => 5
  | debug => 6
  | vomit => 7

def ofRank? : Nat → Option Level
  | 0 => some error
  | 1 => some warn
  | 2 => some notice
  | 3 => some info
  | 4 => some talkative
  | 5 => some chatty
  | 6 => some debug
  | 7 => some vomit
  | _ => none

@[simp] theorem ofRank?_rank (level : Level) : ofRank? level.rank = some level := by
  cases level <;> rfl

theorem rank_of_ofRank? {n : Nat} {level : Level} (h : ofRank? n = some level) :
    level.rank = n := by
  unfold ofRank? at h
  split at h <;> simp_all <;> subst h <;> rfl

theorem rank_injective {a b : Level} (h : a.rank = b.rank) : a = b := by
  have := congrArg ofRank? h
  simpa using this

theorem rank_le_seven (level : Level) : level.rank ≤ 7 := by
  cases level <;> decide

instance : LE Level := ⟨fun a b => a.rank ≤ b.rank⟩

instance (a b : Level) : Decidable (a ≤ b) := inferInstanceAs (Decidable (a.rank ≤ b.rank))

instance : Ord Level := ⟨fun a b => compare a.rank b.rank⟩

/-- The level of an event that names none, and the threshold until another one is set. -/
def normal : Level := info

/-! ## The threshold -/

/-- An event passes the threshold unless it is less important than that. -/
def passes (level threshold : Level) : Bool := decide (level ≤ threshold)

/-! ## Names -/

def name : Level → String
  | error => "error"
  | warn => "warn"
  | notice => "notice"
  | info => "info"
  | talkative => "talkative"
  | chatty => "chatty"
  | debug => "debug"
  | vomit => "vomit"

/-- The name with a capital first letter. -/
def title : Level → String
  | error => "Error"
  | warn => "Warn"
  | notice => "Notice"
  | info => "Info"
  | talkative => "Talkative"
  | chatty => "Chatty"
  | debug => "Debug"
  | vomit => "Vomit"

def all : List Level := [error, warn, notice, info, talkative, chatty, debug, vomit]

/-- Reads a name; ASCII letters match in either case, all other characters only themselves. -/
def ofName? (text : String) : Option Level :=
  all.find? fun level => level.name.toList == text.toList.map Char.toLower

/-! ## Levels from numbers -/

/-- Why a name or a number stands for no level. -/
inductive Unknown where
  | name
  | number (value : Int)
  | byte (value : UInt8)
deriving DecidableEq, Repr

def Unknown.message : Unknown → String
  | .name => "Matching variant not found"
  | .number value => "invalid verbosity level: " ++ toString value
  | .byte value =>
    "No discriminant in enum `Verbosity` matches the value `" ++ toString value.toNat ++ "`"

def ofName (text : String) : Except Unknown Level :=
  match ofName? text with
  | some level => .ok level
  | none => .error .name

/-- Reads a rank from a number that may be negative. -/
def ofInt (value : Int) : Except Unknown Level :=
  match value with
  | .ofNat n =>
    match ofRank? n with
    | some level => .ok level
    | none => .error (.number value)
  | .negSucc _ => .error (.number value)

def ofByte (value : UInt8) : Except Unknown Level :=
  match ofRank? value.toNat with
  | some level => .ok level
  | none => .error (.byte value)

/-- The level that asking `count` times for more detail leads to: that many steps above the
normal one, and no further than the last. -/
def raised (count : Nat) : Level := (ofRank? (normal.rank + count)).getD vomit

end Level

end Worklog
