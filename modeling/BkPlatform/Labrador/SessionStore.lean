import BkPlatform.Lib.LastWriter
import BkPlatform.Labrador.Session

/-!
# The session store over a whole history

`Session.add` takes a session, or a hash with string or symbol keys that it makes a session
from.  Every call turns all cached hashes into sessions and the sessions it keeps into hashes
again; since nothing is lost on the way, the cache is a store in which the last writer
of a name wins.

## Main definitions

* `NewSession`, `SessionCall`, `sessionCall` — what is added, and one call.
* `addedSinceClear` — the sessions added since the last `clear_all`.

## Main results

* `active_sessionCalls` — **`active` returns of each name the session added last**, in the
  order of these additions.
-/

namespace BkPlatform.Labrador

open LastWriter

/-- The argument of `Session.add`. -/
inductive NewSession
  | session (s : Session)
  | hash (attributes : Attributes)
  deriving DecidableEq, Repr

/-- `new_session = self.new(new_session) if new_session.kind_of? Hash`. -/
def NewSession.toSession : NewSession → Session
  | .session s => s
  | .hash attributes => Session.new attributes

/-- A call that changes the store. -/
inductive SessionCall
  | add (new : NewSession)
  | clearAll
  deriving DecidableEq, Repr

/-- `Session.add` and `Session.clear_all`, each without another call in between. -/
def sessionCall (cache : Cache) : SessionCall → Cache
  | .add new => add cache new.toSession
  | .clearAll => none

/-- The cache entry after some calls, none before the first. -/
def sessionCalls (calls : List SessionCall) : Cache := calls.foldl sessionCall none

/-- The sessions added since the last `clear_all`, in order. -/
def addedSinceClear (calls : List SessionCall) : List Session :=
  calls.foldl (fun added call =>
    match call with
    | .add new => added ++ [new.toSession]
    | .clearAll => []) []

/-- The seven attributes of a session under keys of one kind. -/
def Session.attributes (key : String → Key) (s : Session) : Attributes :=
  [(key "adapter", s.adapter), (key "name", s.name), (key "host", s.host),
   (key "username", s.username), (key "database", s.database),
   (key "password", s.password), (key "socket", s.socket)]

/-- A hash with string keys loses nothing. -/
theorem toSession_hash_str (s : Session) : (NewSession.hash (s.attributes .str)).toSession = s :=
  new_toHash s

/-- Neither does one with symbol keys. -/
theorem toSession_hash_sym (s : Session) : (NewSession.hash (s.attributes .sym)).toSession = s := by
  cases s
  simp [NewSession.toSession, Session.new, Session.attributes, Attributes.attribute,
    List.lookup_cons]

/-- One `add` puts the session into the store in place of the one of its name. -/
theorem active_add (cache : Cache) (new : Session) :
    active (add cache new) = put Session.name (active cache) new := by
  rw [add, active_store, keep, put]

/-- The sessions in the cache are those put there since the last `clear_all`. -/
theorem active_sessionCalls_eq (calls : List SessionCall) :
    active (sessionCalls calls) = (addedSinceClear calls).foldl (put Session.name) [] := by
  induction calls using List.reverseRecOn with
  | nil => rfl
  | append_singleton calls call ih =>
    rw [sessionCalls, addedSinceClear, List.foldl_append, List.foldl_append]
    cases call with
    | add new =>
      show active (add (sessionCalls calls) new.toSession) =
        (addedSinceClear calls ++ [new.toSession]).foldl (put Session.name) []
      rw [active_add, ih, List.foldl_append]
      rfl
    | clearAll => rfl

/-- **The store is a map in which the last writer of a name wins**: `active` returns one session
for each name added since the last `clear_all`, the one added last, in the order of these
additions.  A hash with keys of either kind adds the session it was made from. -/
theorem active_sessionCalls (calls : List SessionCall) :
    ((active (sessionCalls calls)).map Session.name).Nodup ∧
    (∀ name, name ∈ (active (sessionCalls calls)).map Session.name ↔
      name ∈ (addedSinceClear calls).map Session.name) ∧
    (∃ times, HoldsLast Session.name (addedSinceClear calls) (active (sessionCalls calls)) times) ∧
    ∀ s : Session, (NewSession.hash (s.attributes .str)).toSession = s ∧
      (NewSession.hash (s.attributes .sym)).toSession = s := by
  rw [active_sessionCalls_eq]
  exact ⟨nodup_foldl_put _, mem_keys_foldl_put _, exists_holdsLast _,
    fun s => ⟨toSession_hash_str s, toSession_hash_sym s⟩⟩

end BkPlatform.Labrador
