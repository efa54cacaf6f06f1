import Mathlib.Algebra.Group.Nat.Defs
import Mathlib.Data.List.Nodup
import Worklog.Proofs.Channel.Registry
import Worklog.Proofs.Lifecycle.Ledger

/-!
# The numbers of activities

A number is a count with the number of the process above it. As long as the count stays below the
number of the process, all numbers are different. After 2³² of them it does not. Every start uses one
up, also a start that fails, and of what handles and channels do nothing else does.

* `toNat_numberFor`, `numberFor_size` — a number below the bound, and the first one above it.
* `numbersFrom_zero_iff` — there are 2³² different ones, and no more.
* `Channel.draws_handleLine`, `Channel.draws_close` — the numbers that a channel uses up.
* `Draws.nodup` — the starts between two books have different numbers.
-/

namespace Worklog

/-! ## Numbers -/

/-- The number that is given after as many others. -/
def numberFor (processId : UInt32) (count : Nat) : UInt64 :=
  UInt64.ofNat count ||| (processId.toUInt64 <<< 32)

/-- As many numbers, one after the other. -/
def numbersFrom (processId : UInt32) (first amount : Nat) : List UInt64 :=
  (List.range' first amount).map (numberFor processId)

/-- The numbers after the first ones follow from where those end. -/
theorem numbersFrom_append (processId : UInt32) (first amount more : Nat) :
    numbersFrom processId first amount ++ numbersFrom processId (first + amount) more
      = numbersFrom processId first (amount + more) := by
  rw [numbersFrom, numbersFrom, numbersFrom, ← List.map_append, List.range'_append_1]

theorem getElem?_numbersFrom (processId : UInt32) (first : Nat) {amount count : Nat}
    (h : count < amount) :
    (numbersFrom processId first amount)[count]? = some (numberFor processId (first + count)) := by
  rw [numbersFrom, List.getElem?_map, List.getElem?_range' h, Nat.one_mul, Option.map_some]

/-- The count takes the lower bits, the number of the process the upper ones, and bits of both are
put together. -/
theorem toNat_numberFor_eq_or (processId : UInt32) (count : Nat) :
    (numberFor processId count).toNat = count % 2 ^ 64 ||| processId.toNat <<< 32 := by
  have hprocess := processId.toNat_lt
  have hshift : processId.toNat <<< 32 < 2 ^ 64 := by
    rw [Nat.shiftLeft_eq]
    omega
  have hbits : (32 : UInt64).toNat % 64 = 32 := rfl
  rw [numberFor, UInt64.toNat_or, UInt64.toNat_ofNat', UInt64.toNat_shiftLeft, hbits,
    UInt32.toNat_toUInt64, Nat.mod_eq_of_lt hshift]

/-- As long as the count fits below it, the number of the process stays as it is. -/
theorem toNat_numberFor (processId : UInt32) {count : Nat} (h : count < 2 ^ 32) :
    (numberFor processId count).toNat = processId.toNat * 2 ^ 32 + count := by
  rw [toNat_numberFor_eq_or, Nat.mod_eq_of_lt (by omega), Nat.or_comm,
    ← Nat.shiftLeft_add_eq_or_of_lt h, Nat.shiftLeft_eq]

/-- As long as the count fits below it, the number of the process can be read off. -/
theorem numberFor_shiftRight (processId : UInt32) {count : Nat} (h : count < 2 ^ 32) :
    numberFor processId count >>> 32 = processId.toUInt64 := by
  apply UInt64.toNat_inj.mp
  have hbits : (32 : UInt64).toNat % 64 = 32 := rfl
  rw [UInt64.toNat_shiftRight, toNat_numberFor processId h, hbits, UInt32.toNat_toUInt64,
    Nat.shiftRight_eq_div_pow]
  omega

/-- The count then reaches into the number of the process. If that does not change, this number was
given before. -/
theorem numberFor_size (processId : UInt32)
    (h : numberFor processId (2 ^ 32) >>> 32 = processId.toUInt64) :
    numberFor processId (2 ^ 32) = numberFor processId 0 := by
  have hor : (numberFor processId (2 ^ 32)).toNat = (1 ||| processId.toNat) <<< 32 := by
    rw [toNat_numberFor_eq_or, Nat.shiftLeft_or_distrib]
    rfl
  have hhigh := congrArg UInt64.toNat h
  rw [UInt64.toNat_shiftRight, hor] at hhigh
  have hsame : 1 ||| processId.toNat = processId.toNat := by
    simpa [Nat.shiftLeft_shiftRight] using hhigh
  apply UInt64.toNat_inj.mp
  rw [hor, hsame, toNat_numberFor_eq_or, Nat.zero_mod, Nat.zero_or]

/-- **All numbers are different and show the process, iff there are no more than 2³².** -/
theorem numbersFrom_zero_iff (processId : UInt32) (amount : Nat) :
    ((numbersFrom processId 0 amount).Nodup
        ∧ ∀ id ∈ numbersFrom processId 0 amount, id >>> 32 = processId.toUInt64)
      ↔ amount ≤ 2 ^ 32 := by
  constructor
  · rintro ⟨honce, hhigh⟩
    by_contra hmany
    have hmem : ∀ count, count ≤ 2 ^ 32 → count ∈ List.range' 0 amount := by
      intro count hcount
      rw [List.mem_range'_1]
      omega
    have hlast := numberFor_size processId
      (hhigh _ (List.mem_map_of_mem (hmem (2 ^ 32) (Nat.le_refl _))))
    have heq := List.inj_on_of_nodup_map honce (hmem (2 ^ 32) (Nat.le_refl _))
      (hmem 0 (Nat.zero_le _)) hlast
    exact absurd heq (by decide)
  · intro hfew
    have hlt : ∀ count ∈ List.range' 0 amount, count < 2 ^ 32 := by
      intro count hcount
      rw [List.mem_range'_1] at hcount
      omega
    refine ⟨List.Nodup.map_on ?_ List.nodup_range', ?_⟩
    · intro a ha b hb hab
      have hnat := congrArg UInt64.toNat hab
      rw [toNat_numberFor _ (hlt a ha), toNat_numberFor _ (hlt b hb)] at hnat
      omega
    · intro id hid
      obtain ⟨count, hcount, rfl⟩ := List.mem_map.mp hid
      exact numberFor_shiftRight processId (hlt count hcount)

/-- Numbers do not repeat before the count reaches the bound. -/
theorem nodup_numbersFrom (processId : UInt32) {first amount : Nat}
    (h : first + amount ≤ 2 ^ 32) : (numbersFrom processId first amount).Nodup := by
  obtain ⟨honce, -⟩ := (numbersFrom_zero_iff processId (first + amount)).mpr h
  rw [← numbersFrom_append, Nat.zero_add] at honce
  exact (List.nodup_append.mp honce).2.1

/-! ## Books -/

namespace Logbook

/-- From one book to the next, these numbers are given out, one after the other. -/
structure Gives (before after : Logbook) (ids : List UInt64) : Prop where
  processId : after.processId = before.processId
  numbers : ∀ count, before.issued = UInt64.ofNat count →
    ids = numbersFrom before.processId count ids.length
  issued : ∀ count, before.issued = UInt64.ofNat count →
    after.issued = UInt64.ofNat (count + ids.length)

variable {a b c : Logbook} {ids more : List UInt64}

theorem gives_nothing (hprocess : b.processId = a.processId) (hissued : b.issued = a.issued) :
    Gives a b [] :=
  ⟨hprocess, fun _ _ => rfl, fun _ hcount => hissued.trans hcount⟩

/-- Asking for a number uses up that number. -/
theorem gives_nextId (book : Logbook) : Gives book book.nextId.2 [book.nextId.1] := by
  refine ⟨rfl, fun count hcount => ?_, fun count hcount => ?_⟩
  · rw [nextId, hcount]
    rfl
  · rw [nextId_issued, hcount]
    exact (UInt64.ofNat_add count 1).symm

/-- What is given out on a way is given out on its parts, one after the other. -/
theorem Gives.trans (h : Gives a b ids) (h' : Gives b c more) : Gives a c (ids ++ more) := by
  refine ⟨h'.processId.trans h.processId, fun count hcount => ?_, fun count hcount => ?_⟩
  · have hids := h.numbers count hcount
    have hmore := h'.numbers _ (h.issued count hcount)
    rw [h.processId] at hmore
    rw [List.length_append, ← numbersFrom_append, ← hids, ← hmore]
  · rw [h'.issued _ (h.issued count hcount), List.length_append, Nat.add_assoc]

/-- Up to the bound, no number is given out twice. -/
theorem Gives.nodup (h : Gives a b ids) (hfew : a.issued.toNat + ids.length ≤ 2 ^ 32) :
    ids.Nodup := by
  rw [h.numbers _ UInt64.ofNat_toNat.symm]
  exact nodup_numbersFrom _ hfew

/-- From one book to the next, numbers are given to starts that handles make, and to nothing else. -/
def Draws (before after : Logbook) : Prop :=
  ∃ added, after.entries = before.entries ++ added
    ∧ Gives before after (startedIn (didIn added))

/-- A way on which only starts use up numbers may be followed by another one. -/
theorem Draws.trans (h : Draws a b) (h' : Draws b c) : Draws a c := by
  obtain ⟨added, hentries, hgives⟩ := h
  obtain ⟨others, hothers, hgives'⟩ := h'
  refine ⟨added ++ others, by rw [hothers, hentries, List.append_assoc], ?_⟩
  rw [didIn_append, startedIn_append]
  exact hgives.trans hgives'

/-- **Up to the bound, all starts have different numbers.** -/
theorem Draws.nodup (h : Draws a b)
    (hfew : a.issued.toNat + (startedIn (didIn (since a b))).length ≤ 2 ^ 32) :
    (startedIn (didIn (since a b))).Nodup := by
  obtain ⟨added, hentries, hgives⟩ := h
  rw [since_eq hentries] at hfew ⊢
  exact hgives.nodup hfew

theorem draws_same (hentries : b.entries = a.entries) (hprocess : b.processId = a.processId)
    (hissued : b.issued = a.issued) : Draws a b :=
  ⟨[], by rw [hentries, List.append_nil], gives_nothing hprocess hissued⟩

theorem draws_refl (book : Logbook) : Draws book book := draws_same rfl rfl rfl

theorem draws_addNote (book : Logbook) (note : Note) : Draws book (book.addNote note) :=
  ⟨[.note note], rfl, gives_nothing rfl rfl⟩

/-- A call that is no start of a handle. -/
theorem draws_emit (issuer : Issuer) (sink : Sink) (call : Call) (book : Logbook)
    (hcall : ∀ result,
      startedIn (Entry.call issuer sink call result).did?.toList = []) :
    Draws book (emit issuer sink call book).2 := by
  obtain ⟨added, hentries, htold⟩ := told_emit issuer sink call book
  have hextends := extends_emit issuer sink call book
  refine ⟨added, hentries, ?_⟩
  rw [htold.didIn, hcall]
  exact gives_nothing hextends.processId hextends.issued

end Logbook

open Logbook

namespace Activity

theorem draws_update (activity : Activity) (kind : UpdateKind) (fields : List Field)
    (book : Logbook) : Draws book (activity.update kind fields book).2 :=
  draws_emit .handle activity.sink (.update activity.id kind fields) book fun _ => rfl

theorem draws_stop (activity : Activity) (book : Logbook) :
    Draws book (activity.stop book) := by
  have hcall := draws_emit .handle activity.sink (.stop activity.id) book fun _ => rfl
  rcases activity.stop_eq book with hstop | ⟨note, hstop⟩
  · rw [hstop]
    exact hcall
  · rw [hstop]
    exact hcall.trans (draws_addNote _ note)

/-- A start uses up one number, whatever becomes of it. -/
theorem draws_start (sink : Sink) (level : Level) (kind : ActivityKind) (text : String)
    (fields : List Field) (parent : UInt64) (book : Logbook) :
    Draws book (start sink level kind text fields parent book).2 := by
  obtain ⟨added, hentries, htold⟩ := told_emit .handle sink
    (.start book.nextId.1 level kind text fields parent) book.nextId.2
  have hextends := extends_emit .handle sink
    (.start book.nextId.1 level kind text fields parent) book.nextId.2
  have hcall : Draws book (emit .handle sink
      (.start book.nextId.1 level kind text fields parent) book.nextId.2).2 := by
    refine ⟨added, hentries, ?_⟩
    rw [htold.didIn]
    exact (gives_nextId book).trans (gives_nothing hextends.processId hextends.issued)
  simp only [start]
  split
  next hemit =>
    rw [hemit] at hcall
    exact hcall
  next hemit =>
    rw [hemit] at hcall
    exact hcall.trans (draws_addNote _ _)

end Activity

namespace Channel

theorem draws_emit (sink : Sink) (call : Call) (book : Logbook) :
    Draws book (emit .channel sink call book).2 :=
  Logbook.draws_emit .channel sink call book fun _ => rfl

/-- A channel uses up a number for each start that it makes, also if that fails. -/
theorem draws_accept (channel : Channel) (remote : UInt64) (level : Level) (kind : ActivityKind)
    (text : String) (values : Option (List Json)) (book : Logbook) :
    Draws book (channel.accept remote level kind text values book).book := by
  unfold accept
  split
  next => exact draws_refl book
  next fields hdecode =>
    have hstart := Activity.draws_start (channel.targetSink book) level kind text fields
      channel.parent book
    split
    next hfailed =>
      rw [hfailed] at hstart
      exact hstart
    next htaken =>
      rw [htaken] at hstart
      exact hstart

/-- Of all messages, only starts use up numbers. -/
theorem draws_handle (channel : Channel) (message : Wire.Message) (trusted : Bool)
    (book : Logbook) : Draws book (channel.handle message trusted book).book := by
  cases message with
  | start remote level kind text parent values =>
    simp only [handle]
    split
    · exact draws_addNote book _
    · split
      · exact draws_addNote book _
      · exact channel.draws_accept remote level kind text values book
  | stop remote =>
    simp only [handle]
    split
    next => exact draws_refl book
    next activity hfind => exact activity.draws_stop book
  | update remote kind values =>
    simp only [handle]
    split
    next => exact draws_refl book
    next activity hfind =>
      split
      next => exact draws_refl book
      next fields hdecode =>
        rw [passedOn_book]
        exact activity.draws_update kind fields book
  | phase name =>
    rw [handle, passedOn_book]
    exact draws_emit _ _ book
  | message level text raw =>
    rw [handle, passedOn_book]
    exact draws_emit _ _ book
  | unknown => exact draws_refl book

/-- A warning uses up nothing, also if it fails. -/
theorem draws_warn (channel : Channel) (text : String) (book : Logbook) :
    Draws book (channel.warn text book) := by
  have hcall := draws_emit (channel.targetSink book) (.warning text) book
  rcases channel.warn_eq text book with hwarn | ⟨note, hwarn⟩
  · rw [hwarn]
    exact hcall
  · rw [hwarn]
    exact hcall.trans (draws_addNote _ note)

/-- **Whatever a line says, a channel uses up numbers for its starts and for nothing else.** -/
theorem draws_handleLine (channel : Channel) (line source : String) (trusted : Bool)
    (book : Logbook) : Draws book (channel.handleLine line source trusted book).book := by
  cases hheard : heard? line with
  | some message =>
    rw [handleLine_of_heard hheard]
    exact channel.draws_handle message trusted book
  | none =>
    rcases handleLine_of_unheard hheard channel source trusted book with ⟨-, h⟩ | ⟨_, _, h⟩
    · rw [h]
      exact draws_refl book
    · rw [h]
      exact channel.draws_warn _ book

/-- The end of a channel uses up nothing. -/
theorem draws_close (channel : Channel) (book : Logbook) : Draws book (channel.close book) := by
  unfold close
  induction channel.leaving generalizing book with
  | nil => exact draws_refl book
  | cons entry rest ih => exact (entry.2.draws_stop book).trans (ih _)

end Channel

end Worklog
