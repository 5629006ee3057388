/-
The headers of the trunk INVITE that are copied to the next hop.

The copies are made name by name, in the order in which `PASSTHROUGH_HEADERS` lists the
names.  All headers are copied that should be, but in the order of the wire only if they
are already in that of the names there.
-/

import AsPlatform.Library.Grouping
import AsPlatform.Library.Loops

namespace AsPlatform

def passthroughHeaders : List String :=
  ["p-asserted-identity", "p-preferred-identity", "privacy", "p-charging-vector",
    "p-charging-function-addresses", "p-visited-network-id", "subject", "organization",
    "priority"]

/-- A header as the stack keeps it: the name is in lower case. -/
structure SipHeader (Body : Type) where
  name : String
  body : Body
  deriving DecidableEq

section Copy

variable {Request Body : Type}

/-- `_pass_through_headers`, where the request may be `None`. -/
def passThroughHeaders (getHFBodys : Request → String → List Body) (getCopy : Body → Body)
    (request : Option Request) : List (SipHeader Body) :=
  match request with
  | none => []
  | some request =>
      passthroughHeaders.foldl
        (fun headers name =>
          (getHFBodys request name).foldl
            (fun headers body => headers ++ [{ name := name, body := getCopy body }]) headers) []

/-- The stack gives the bodies of the headers of one name in the order of the wire, and a copy
of a body is equal to it. -/
structure ReadsHeaders (wire : Request → List (SipHeader Body))
    (getHFBodys : Request → String → List Body) (getCopy : Body → Body) : Prop where
  bodies : ∀ request name, getHFBodys request name =
    ((wire request).filter fun header => decide (header.name = name)).map SipHeader.body
  copy : ∀ body, getCopy body = body

def passedThrough (headers : List (SipHeader Body)) : List (SipHeader Body) :=
  headers.filter fun header => decide (header.name ∈ passthroughHeaders)

variable {wire : Request → List (SipHeader Body)} {getHFBodys : Request → String → List Body}
  {getCopy : Body → Body}

theorem appending_composes :
    Loops.Composes fun (added before after : List (SipHeader Body)) => after = before ++ added where
  nil := fun headers => (List.append_nil headers).symm
  append := by
    intro first second before middle after isMiddle isAfter
    rw [isAfter, isMiddle, List.append_assoc]

/-- What the two loops collect: the headers, name by name. -/
theorem passThroughHeaders_grouped (reads : ReadsHeaders wire getHFBodys getCopy)
    (request : Request) :
    passThroughHeaders getHFBodys getCopy (some request) =
      Grouping.grouped SipHeader.name passthroughHeaders (wire request) := by
  have ofName : ∀ (headers : List (SipHeader Body)) (name : String),
      (getHFBodys request name).foldl
          (fun headers body => headers ++ [{ name := name, body := getCopy body }]) headers =
        headers ++ Grouping.group SipHeader.name name (wire request) := by
    intro headers name
    let copied : Body → List (SipHeader Body) := fun body =>
      [{ name := name, body := getCopy body }]
    have each : ∀ (collected : List (SipHeader Body)) (body : Body),
        collected ++ copied body = collected ++ copied body := fun _ _ => rfl
    refine (appending_composes.foldl each (getHFBodys request name) headers).trans
      (congrArg (headers ++ ·) ?_)
    rw [reads.bodies request name, List.flatMap_map, Grouping.group, ← List.map_eq_flatMap]
    refine (List.map_congr_left ?_).trans (List.map_id _)
    intro header member
    have named : header.name = name := of_decide_eq_true (List.mem_filter.mp member).2
    rw [reads.copy header.body, ← named]
    rfl
  exact appending_composes.foldl ofName passthroughHeaders []

theorem passthroughHeaders_nodup : passthroughHeaders.Nodup := by
  decide

/-- For every INVITE: the copies are the headers that are passed through, in some order. -/
theorem passThroughHeaders_perm (reads : ReadsHeaders wire getHFBodys getCopy)
    (request : Request) :
    (passThroughHeaders getHFBodys getCopy (some request)).Perm (passedThrough (wire request)) := by
  rw [passThroughHeaders_grouped reads request]
  exact Grouping.grouped_perm SipHeader.name passthroughHeaders_nodup (wire request)

def NamesInOrder (headers : List (SipHeader Body)) : Prop :=
  (passedThrough headers).Pairwise fun left right =>
    passthroughHeaders.idxOf left.name ≤ passthroughHeaders.idxOf right.name

/-- For every INVITE: the copies are in the order of the wire exactly if the headers stand
there in the order of the names. -/
theorem passThroughHeaders_wireOrder_iff (reads : ReadsHeaders wire getHFBodys getCopy)
    (request : Request) :
    passThroughHeaders getHFBodys getCopy (some request) = passedThrough (wire request) ↔
      NamesInOrder (wire request) := by
  rw [passThroughHeaders_grouped reads request]
  exact Grouping.grouped_eq_iff SipHeader.name passthroughHeaders_nodup (wire request)

end Copy

def sampleBodies (request : List (SipHeader String)) (name : String) : List String :=
  (request.filter fun header => decide (header.name = name)).map SipHeader.body

theorem passThroughHeaders_wireOrder_iff_repeated :
    passThroughHeaders sampleBodies id
        (some [⟨"privacy", "id"⟩, ⟨"via", "192.0.2.1"⟩, ⟨"privacy", "user"⟩, ⟨"subject", "x"⟩]) =
          [⟨"privacy", "id"⟩, ⟨"privacy", "user"⟩, ⟨"subject", "x"⟩] := by
  have reads : ReadsHeaders id sampleBodies id := ⟨fun _ _ => rfl, fun _ => rfl⟩
  refine ((passThroughHeaders_wireOrder_iff reads _).mpr ?_).trans rfl
  unfold NamesInOrder
  decide

/-- The subject stands before the identity on the wire, and after it among the copies. -/
theorem not_passThroughHeaders_wireOrder :
    ReadsHeaders id sampleBodies id ∧
      passThroughHeaders sampleBodies id
          (some [⟨"subject", "x"⟩, ⟨"p-asserted-identity", "<sip:1@as>"⟩]) ≠
        passedThrough [⟨"subject", "x"⟩, ⟨"p-asserted-identity", "<sip:1@as>"⟩] :=
  ⟨⟨fun _ _ => rfl, fun _ => rfl⟩, by decide⟩

end AsPlatform
