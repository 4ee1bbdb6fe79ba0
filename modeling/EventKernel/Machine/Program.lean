import EventKernel.Machine.Request

/-!
# Callbacks as programs

A program asks for one thing after the other and goes on with the answers. Besides requests it can
perform other code, run the loop of its simulator, and tear the simulator down.
-/

namespace EventKernel

/-- A program of requests that ends with a value. -/
inductive Program (K U α : Type) where
  | done (a : α)
  | ask (r : Request K U) (next : r.Reply → Program K U α)
  /-- Perform the code named by `k`. -/
  | perform (k : K) (next : PUnit → Program K U α)
  /-- Dispatch events until none is left or a stop is asked for. -/
  | run (next : Except SimError PUnit → Program K U α)
  /-- Tear the simulator down. -/
  | destroy (next : Except SimError PUnit → Program K U α)

namespace Program

variable {K U α β : Type}

/-- Go on with the value of a program. -/
def bind (p : Program K U α) (f : α → Program K U β) : Program K U β :=
  match p with
  | done a => f a
  | ask r next => ask r fun a => (next a).bind f
  | perform k next => perform k fun a => (next a).bind f
  | run next => run fun a => (next a).bind f
  | destroy next => destroy fun a => (next a).bind f

instance : Monad (Program K U) where
  pure := done
  bind := bind

/-- Make one request. -/
def request (r : Request K U) : Program K U r.Reply := ask r done

/-- Make one request to the simulator. -/
def sim (r : SimRequest K) : Program K U r.Reply := request (.sim r)

/-- Make one request to the inbox of a simulator. -/
def inbox (target : Nat) (r : InboxRequest K) : Program K U r.Reply := request (.inbox target r)

/-- The state of the user. -/
def load : Program K U U := request .load

/-- Change the state of the user. -/
def modify (f : U → U) : Program K U PUnit := request (.update f)

/-- Set the state of the user. -/
def store (u : U) : Program K U PUnit := modify fun _ => u

/-- Do something for each item of a list. -/
def forEach (f : α → Program K U PUnit) : List α → Program K U PUnit
  | [] => done ()
  | a :: as => (f a).bind fun _ => forEach f as

end Program

/-- A message to the inbox of a simulator. -/
inductive Message (K : Type) where
  | schedule (target : Nat) (context : ContextId) (delay : Time) (k : K)
  | stop (target : Nat)

/-- What the names in `K` stand for. -/
structure Code (K U : Type) where
  /-- The program to perform. -/
  routine : K → Program K U PUnit
  /-- What an observer does with an event that is about to run on the simulator with the given
  identity: it changes the state of the user and sends messages. -/
  observe : K → Nat → EventInfo → U → U × List (Message K)

end EventKernel
