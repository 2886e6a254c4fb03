import DigestFinder.Search.Session

/-!
The two strategies that go through a list: the models of a catalogue, and the algorithms that a
provider lists for a width.
-/

namespace DigestFinder.Search

universe u

/-- What a search knows of named algorithms. -/
structure Provider where
  list : Nat → IdMap String
  /-- The digest function of a name. -/
  digest : String → Except DigestError (Bytes → Bytes)

/-- What a registry lists, and the digests that the given function makes. -/
def Provider.ofRegistry {δ : Type u} (make : δ → Streaming) (r : Registry δ) : Provider where
  list width := r.list (some width)
  digest id := (r.instantiate make id).map Streaming.digest

/-- One candidate, reported as `found` if its digest is the expected one. -/
structure Candidate where
  found : Match
  digest : Bytes → Except Error Bytes

def Candidate.ofEntry (e : Entry) : Candidate where
  found := .named e.id s!"{e.description} [crc:{e.model.text}]"
  digest data := .ok ((Crc.Engine.start e.model).update data).digest

def Candidate.ofListed (p : Provider) (id description : String) : Candidate where
  found := .named id description
  digest data := match p.digest id with
    | .ok digest => .ok (digest data)
    | .error cause => .error (.internal id cause)

/-- Try candidates in order, each after a look at the request to stop. -/
def sweep (strategy : Strategy) (request : Request) (total : Result) (s : Session) :
    List Candidate → Except Error Result × Session
  | [] => (.ok total, s)
  | c :: rest =>
    if s.cancelled then (.error .cancelled, s)
    else
      let s := if s.verbose then s.emit (.candidate strategy c.found.id) else s
      match c.digest request.target with
      | .error e => (.error e, s)
      | .ok digest =>
        if request.expected.accepts digest then
          sweep strategy request (total.hit c.found) (s.emit (.matched strategy c.found)) rest
        else sweep strategy request total.miss s rest

/-- The models of a catalogue that have the width of the request. -/
def catalogueCandidates (c : Catalogue) (width : Nat) : List Candidate :=
  (c.withWidth width).map .ofEntry

/-- What a provider lists for the width of the request. -/
def documentedCandidates (p : Provider) (width : Nat) : List Candidate :=
  (p.list width).entries.map fun (id, description) => .ofListed p id description

end DigestFinder.Search
