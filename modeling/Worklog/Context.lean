/-!
# The current activity

Work that starts without naming a parent belongs to the current activity. Each thread has a current
activity, and so has each scope that is open on it; the innermost one counts. The number `0` means
that there is none.

A guard makes an activity current, and when it is released puts back what it found, into whichever
scope is innermost then.

* `leave_enter` — a scope leaves nothing behind.
* `current_set` — what is set is current, and what is outside of the innermost scope stays.
-/

namespace Worklog

/-- The current activities of one thread: its own, and those of its open scopes, innermost first. -/
structure Context where
  thread : UInt64 := 0
  scopes : List UInt64 := []
deriving DecidableEq, Repr, Inhabited

namespace Context

def current (context : Context) : UInt64 :=
  match context.scopes with
  | [] => context.thread
  | id :: _ => id

def set (context : Context) (id : UInt64) : Context :=
  match context.scopes with
  | [] => { context with thread := id }
  | _ :: outer => { context with scopes := id :: outer }

/-- Opens a scope whose current activity is the given one. -/
def enter (context : Context) (id : UInt64) : Context :=
  { context with scopes := id :: context.scopes }

/-- Closes the innermost scope. -/
def leave (context : Context) : Context :=
  { context with scopes := context.scopes.tail }

@[simp] theorem current_set (context : Context) (id : UInt64) :
    (context.set id).current = id := by
  obtain ⟨thread, scopes⟩ := context
  cases scopes <;> rfl

@[simp] theorem current_enter (context : Context) (id : UInt64) :
    (context.enter id).current = id := rfl

@[simp] theorem leave_enter (context : Context) (id : UInt64) :
    (context.enter id).leave = context := rfl

@[simp] theorem leave_set_enter (context : Context) (id next : UInt64) :
    ((context.enter id).set next).leave = context := rfl

end Context

/-- Remembers what was current when it was made. -/
structure Guard where
  previous : UInt64
deriving DecidableEq, Repr

namespace Guard

/-- Makes an activity current until the guard is released. -/
def push (context : Context) (id : UInt64) : Guard × Context :=
  (⟨context.current⟩, context.set id)

def release (guard : Guard) (context : Context) : Context := context.set guard.previous

theorem release_push (context : Context) (id : UInt64) :
    (push context id).1.release (push context id).2 = context := by
  obtain ⟨thread, scopes⟩ := context
  cases scopes <;> rfl

end Guard

end Worklog
