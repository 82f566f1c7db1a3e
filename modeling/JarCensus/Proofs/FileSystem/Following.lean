import JarCensus.Proofs.FileSystem.Node
import JarCensus.Proofs.FileSystem.Path

/-!
# Following paths below a folder

Where a path leads to a folder, the path of a name in the folder leads to the node of that name.
The links on the way to the folder have no part in this: what is left to follow behind them is
followed from where they lead.
-/

namespace JarCensus

namespace FileSystem

variable {root node : Node} {trail behind : Trail} {links : Nat} {segments : List String}
  {location : Location} {children : List (String × Node)} {folder name : String}
  {fs : FileSystem}

/-- The node that a trail leads to. -/
def reached (root : Node) (trail : Trail) : Node := (trail.head?.map (·.2)).getD root

/-- That each node of a trail is the one of its name in the folder before. -/
def IsTrail (root : Node) : Trail → Prop
  | [] => True
  | (name, node) :: behind =>
    IsTrail root behind ∧
      ∃ children, reached root behind = .folder children ∧ children.lookup name = some node

/-- A trail leads to the node at its location. -/
theorem IsTrail.at? (htrail : IsTrail root trail) :
    root.at? trail.location = some (reached root trail) := by
  induction trail with
  | nil => cases root <;> rfl
  | cons step behind ih =>
    obtain ⟨hbehind, children, hreached, hlookup⟩ := htrail
    have hbefore := ih hbehind
    rw [hreached] at hbefore
    have hlocation : Trail.location (step :: behind) = Trail.location behind ++ [step.1] := by
      simp [Trail.location]
    rw [hlocation, Node.at?_append_singleton hbefore, hlookup]
    rfl

/-- A trail without its last step is a trail. -/
theorem IsTrail.drop (htrail : IsTrail root trail) : IsTrail root (trail.drop 1) := by
  cases trail with
  | nil => exact htrail
  | cons step behind => exact htrail.1

/-- Following locations from a trail gives a trail. -/
theorem isTrail_of_trail? (htrail : trail? behind node location = some trail)
    (hbehind : IsTrail root behind) (hreached : reached root behind = node) :
    IsTrail root trail := by
  induction location generalizing behind node with
  | nil =>
    cases node <;> cases htrail <;> exact hbehind
  | cons name rest ih =>
    cases node with
    | file content => cases htrail
    | link target => cases htrail
    | folder children =>
      obtain ⟨child, hlookup, hrest⟩ := Option.bind_eq_some_iff.mp htrail
      exact ih hrest ⟨hbehind, children, hreached, hlookup⟩ rfl

/-- A path can be followed when it is not cut off, not empty and not too long, from the root or
from the working folder. -/
theorem start_eq_ok_iff {path : String} : fs.start path = .ok trail ↔
    '\x00' ∉ path.toList ∧ path ≠ "" ∧ path.utf8ByteSize ≤ maxPathSize ∧
      (if Path.isAbsolute path then [] = trail
        else trail? [] fs.root fs.workingFolder = some trail) := by
  unfold start
  by_cases hended : '\x00' ∈ path.toList
  · simp [hended]
  by_cases hgiven : path = ""
  · simp [hgiven]
  by_cases hsize : maxPathSize < path.utf8ByteSize
  · simp [hended, hgiven, hsize, Nat.not_le.mpr hsize]
  have hfits := Nat.not_lt.mp hsize
  cases hroot : Path.isAbsolute path with
  | true => simp [hended, hgiven, hsize, hfits]
  | false =>
    cases htrail : trail? [] fs.root fs.workingFolder <;> simp [hended, hgiven, hsize, hfits]

/-- A path starts from a trail. -/
theorem isTrail_of_start {path : String} (hstart : fs.start path = .ok trail) :
    IsTrail fs.root trail := by
  obtain ⟨-, -, -, htrail⟩ := start_eq_ok_iff.mp hstart
  split at htrail
  · cases htrail
    trivial
  · exact isTrail_of_trail? htrail trivial rfl

/-- That following segments leads from one trail to another, with the links that may still be
followed before and after. -/
inductive Leads (root : Node) : Nat → List String → Trail → Nat → Trail → Prop
  /-- Nothing is left to follow. -/
  | here {links : Nat} {trail : Trail} : Leads root links [] trail links trail
  /-- A segment that says nothing leads nowhere else. -/
  | idle {links links' : Nat} {segment : String} {rest : List String} {trail trail' : Trail}
    {children : List (String × Node)} (hfolder : reached root trail = .folder children)
    (hidle : Path.isIdle segment = true) (hrest : Leads root links rest trail links' trail') :
    Leads root links (segment :: rest) trail links' trail'
  /-- Two dots lead to the folder above. -/
  | up {links links' : Nat} {rest : List String} {trail trail' : Trail}
    {children : List (String × Node)} (hfolder : reached root trail = .folder children)
    (hrest : Leads root links rest (trail.drop 1) links' trail') :
    Leads root links (".." :: rest) trail links' trail'
  /-- A name of a link leads on from where the link does. -/
  | link {links links' : Nat} {segment target : String} {rest : List String}
    {trail trail' : Trail} {children : List (String × Node)}
    (hfolder : reached root trail = .folder children) (htells : Path.isIdle segment = false)
    (hstays : segment ≠ "..") (hshort : segment.utf8ByteSize ≤ maxNameSize)
    (hlookup : children.lookup segment = some (.link target))
    (hrest : Leads root links (Path.segments target ++ rest)
      (if Path.isAbsolute target then [] else trail) links' trail') :
    Leads root (links + 1) (segment :: rest) trail links' trail'
  /-- A name of a file or a folder leads to it. -/
  | child {links links' : Nat} {segment : String} {rest : List String} {trail trail' : Trail}
    {children : List (String × Node)} {node : Node}
    (hfolder : reached root trail = .folder children) (htells : Path.isIdle segment = false)
    (hstays : segment ≠ "..") (hshort : segment.utf8ByteSize ≤ maxNameSize)
    (hlookup : children.lookup segment = some node) (hnode : ∀ target, node ≠ .link target)
    (hrest : Leads root links rest ((segment, node) :: trail) links' trail') :
    Leads root links (segment :: rest) trail links' trail'

variable {links' : Nat} {trail' : Trail}

/-- Following that comes to a node leads to a trail of its location. -/
theorem exists_leads_of_follow
    (hfollow : follow root false links segments trail = .ok (.node location)) :
    ∃ links' trail', Leads root links segments trail links' trail' ∧
      Trail.location trail' = location := by
  fun_induction follow root false links segments trail with
  | case1 links trail =>
    cases hfollow
    exact ⟨links, trail, .here, rfl⟩
  | case2 links trail segment rest children hfolder hidle ih =>
    obtain ⟨links', trail', hleads, hlocation⟩ := ih hfollow
    exact ⟨links', trail', .idle hfolder hidle hleads, hlocation⟩
  | case3 links trail rest children hfolder _ ih =>
    obtain ⟨links', trail', hleads, hlocation⟩ := ih hfollow
    exact ⟨links', trail', .up hfolder hleads, hlocation⟩
  | case9 trail segment rest children hfolder hidle hstays _ hshort target hlookup links ih =>
    obtain ⟨links', trail', hleads, hlocation⟩ := ih hfollow
    exact ⟨links', trail', .link hfolder (by simpa using hidle) hstays (Nat.not_lt.mp hshort)
      hlookup hleads, hlocation⟩
  | case10 links trail segment rest children hfolder hidle hstays _ hshort node hnode hlookup ih =>
    obtain ⟨links', trail', hleads, hlocation⟩ := ih hfollow
    exact ⟨links', trail', .child hfolder (by simpa using hidle) hstays (Nat.not_lt.mp hshort)
      hlookup hnode hleads, hlocation⟩
  | _ => cases hfollow

section Steps

variable {segment : String} {rest : List String}

/-- A segment that says nothing is passed over. -/
theorem follow_of_idle (hfolder : reached root trail = .folder children)
    (hidle : Path.isIdle segment = true) :
    follow root false links (segment :: rest) trail = follow root false links rest trail := by
  unfold reached at hfolder
  rw [follow, hfolder]
  simp only [hidle, if_true]

/-- Two dots are followed to the folder above. -/
theorem follow_of_up (hfolder : reached root trail = .folder children) :
    follow root false links (".." :: rest) trail =
      follow root false links rest (trail.drop 1) := by
  unfold reached at hfolder
  rw [follow, hfolder]
  simp [Path.isIdle]

/-- A name of a link is followed to where the link leads. -/
theorem follow_of_link {target : String} (hfolder : reached root trail = .folder children)
    (htells : Path.isIdle segment = false) (hstays : segment ≠ "..")
    (hshort : segment.utf8ByteSize ≤ maxNameSize)
    (hlookup : children.lookup segment = some (.link target)) :
    follow root false (links + 1) (segment :: rest) trail =
      follow root false links (Path.segments target ++ rest)
        (if Path.isAbsolute target then [] else trail) := by
  unfold reached at hfolder
  rw [follow, hfolder]
  simp only [htells, hstays, Nat.not_lt.mpr hshort, hlookup, Bool.false_and, if_false,
    Bool.false_eq_true]

/-- A name of a file or a folder is followed to it. -/
theorem follow_of_child (hfolder : reached root trail = .folder children)
    (htells : Path.isIdle segment = false) (hstays : segment ≠ "..")
    (hshort : segment.utf8ByteSize ≤ maxNameSize) (hlookup : children.lookup segment = some node)
    (hnode : ∀ target, node ≠ .link target) :
    follow root false links (segment :: rest) trail =
      follow root false links rest ((segment, node) :: trail) := by
  unfold reached at hfolder
  rw [follow, hfolder]
  cases node with
  | link target => exact absurd rfl (hnode target)
  | file content =>
    simp only [htells, hstays, Nat.not_lt.mpr hshort, hlookup, Bool.false_and, if_false,
      Bool.false_eq_true]
  | folder children =>
    simp only [htells, hstays, Nat.not_lt.mpr hshort, hlookup, Bool.false_and, if_false,
      Bool.false_eq_true]

end Steps

/-- What is to be followed behind segments is followed from where these lead. -/
theorem Leads.follow_append (hleads : Leads root links segments trail links' trail')
    (more : List String) :
    follow root false links (segments ++ more) trail = follow root false links' more trail' := by
  induction hleads with
  | here => rfl
  | idle hfolder hidle _ ih => exact (follow_of_idle hfolder hidle).trans ih
  | up hfolder _ ih => exact (follow_of_up hfolder).trans ih
  | link hfolder htells hstays hshort hlookup _ ih =>
    rw [List.append_assoc] at ih
    exact (follow_of_link hfolder htells hstays hshort hlookup).trans ih
  | child hfolder htells hstays hshort hlookup hnode _ ih =>
    exact (follow_of_child hfolder htells hstays hshort hlookup hnode).trans ih

/-- Segments lead from a trail to a trail. -/
theorem Leads.isTrail (hleads : Leads root links segments trail links' trail')
    (htrail : IsTrail root trail) : IsTrail root trail' := by
  induction hleads with
  | here => exact htrail
  | idle _ _ _ ih => exact ih htrail
  | up _ _ ih => exact ih htrail.drop
  | link _ _ _ _ _ _ ih =>
    refine ih ?_
    split
    · trivial
    · exact htrail
  | child hfolder _ _ _ hlookup _ _ ih => exact ih ⟨htrail, _, hfolder, hlookup⟩

/-- Segments in front of a slash lead to the same place without the slash. -/
theorem Leads.of_slash (hleads : Leads root links (segments ++ [""]) trail links' trail') :
    Leads root links segments trail links' trail' := by
  generalize hall : segments ++ [""] = all at hleads
  induction hleads generalizing segments with
  | here => simp at hall
  | idle hfolder hidle hrest ih =>
    cases segments with
    | nil =>
      cases hall
      exact hrest
    | cons segment rest =>
      cases hall
      exact .idle hfolder hidle (ih rfl)
  | up hfolder _ ih =>
    cases segments with
    | nil => simp at hall
    | cons segment rest =>
      cases hall
      exact .up hfolder (ih rfl)
  | link hfolder htells hstays hshort hlookup _ ih =>
    cases segments with
    | nil =>
      cases hall
      cases htells
    | cons segment rest =>
      cases hall
      exact .link hfolder htells hstays hshort hlookup (ih (List.append_assoc _ _ _))
  | child hfolder htells hstays hshort hlookup hnode _ ih =>
    cases segments with
    | nil =>
      cases hall
      cases htells
    | cons segment rest =>
      cases hall
      exact .child hfolder htells hstays hshort hlookup hnode (ih rfl)

/-- The path of a name in a folder starts where the path of the folder does. -/
theorem start_join (hstart : fs.start folder = .ok trail) (hname : IsName name)
    (hsize : (Path.join folder name).utf8ByteSize ≤ maxPathSize) :
    fs.start (Path.join folder name) = .ok trail := by
  obtain ⟨hended, hfolder, -, htrail⟩ := start_eq_ok_iff.mp hstart
  have hgiven : name ≠ "" := by simpa using hname.given
  refine start_eq_ok_iff.mpr ⟨?_, Path.join_ne_empty hgiven, hsize, ?_⟩
  · intro hmem
    rcases Path.mem_join hmem with hc | hc | hc
    · exact hended hc
    · cases hc
    · simpa [hc] using hname.whole
  · rwa [Path.isAbsolute_join hfolder]

/-- A path that leads to a node starts from a trail and leads on to one of the location of the
node. -/
theorem exists_leads_of_resolve {path : String} (hresolve : fs.resolve path = .ok location) :
    ∃ trail links' trail', fs.start path = .ok trail ∧
      Leads fs.root maxLinks (Path.segments path) trail links' trail' ∧
      Trail.location trail' = location := by
  unfold resolve destination at hresolve
  cases hstart : fs.start path with
  | error cause =>
    rw [hstart] at hresolve
    cases hresolve
  | ok trail =>
    rw [hstart] at hresolve
    simp only [bind, Except.bind] at hresolve
    cases hfollow : follow fs.root false maxLinks (Path.segments path) trail with
    | error cause =>
      rw [hfollow] at hresolve
      cases hresolve
    | ok destination =>
      rw [hfollow] at hresolve
      cases destination with
      | vacancy above name => cases hresolve
      | node location =>
        cases hresolve
        obtain ⟨links', trail', hleads, hlocation⟩ := exists_leads_of_follow hfollow
        exact ⟨trail, links', trail', rfl, hleads, hlocation⟩

/-- What is to be followed of the path of a name in a folder is followed from the folder. -/
theorem exists_follow_join (hfolder : fs.resolve folder = .ok location)
    (hchildren : fs.root.at? location = some (.folder children)) (hname : IsName name)
    (hsize : (Path.join folder name).utf8ByteSize ≤ maxPathSize) :
    ∃ links trail, Trail.location trail = location ∧ reached fs.root trail = .folder children ∧
      fs.destination false (Path.join folder name) = follow fs.root false links [name] trail := by
  obtain ⟨trail, links', trail', hstart, hleads, rfl⟩ := exists_leads_of_resolve hfolder
  have hgiven : folder ≠ "" := (start_eq_ok_iff.mp hstart).2.1
  obtain ⟨above, -, hjoined, hsegments⟩ := Path.exists_segments_join hgiven hname.alone
  have habove : Leads fs.root maxLinks above trail links' trail' := by
    rcases hsegments with hsegments | hsegments
    · rwa [hsegments] at hleads
    · rw [hsegments] at hleads
      exact hleads.of_slash
  have hat := (habove.isTrail (isTrail_of_start hstart)).at?
  rw [hchildren] at hat
  refine ⟨links', trail', rfl, (Option.some.inj hat).symm, ?_⟩
  simp only [destination, start_join hstart hname hsize, bind, Except.bind]
  rw [hjoined, habove.follow_append]

/-- The path of a name in a folder leads to the node of that name, unless it is a link. -/
theorem resolve_join (hfolder : fs.resolve folder = .ok location)
    (hchildren : fs.root.at? location = some (.folder children)) (hname : IsName name)
    (hlookup : children.lookup name = some node) (hnode : ∀ target, node ≠ .link target)
    (hsize : (Path.join folder name).utf8ByteSize ≤ maxPathSize) :
    fs.resolve (Path.join folder name) = .ok (location ++ [name]) := by
  obtain ⟨links, trail, rfl, hreached, hdestination⟩ :=
    exists_follow_join hfolder hchildren hname hsize
  have hlast : Leads fs.root links [name] trail links ((name, node) :: trail) :=
    .child hreached hname.tells hname.stays hname.short hlookup hnode .here
  have hfollow := hlast.follow_append []
  rw [List.append_nil, follow] at hfollow
  simp [resolve, hdestination, hfollow, Trail.location]

/-- The path of a name that a folder does not have leads to nothing. -/
theorem resolve_join_of_lookup_eq_none (hfolder : fs.resolve folder = .ok location)
    (hchildren : fs.root.at? location = some (.folder children)) (hname : IsName name)
    (hlookup : children.lookup name = none)
    (hsize : (Path.join folder name).utf8ByteSize ≤ maxPathSize) :
    fs.resolve (Path.join folder name) = .error .notFound := by
  obtain ⟨links, trail, rfl, hreached, hdestination⟩ :=
    exists_follow_join hfolder hchildren hname hsize
  have hfollow : follow fs.root false links [name] trail = .ok (.vacancy trail.location name) := by
    unfold reached at hreached
    rw [follow, hreached]
    simp [hname.tells, hname.stays, Nat.not_lt.mpr hname.short, hlookup]
  simp [resolve, hdestination, hfollow]

/-- The path of the root leads there. -/
theorem resolve_root (hroot : fs.root = .folder children) : fs.resolve "/" = .ok [] := by
  have hstart : fs.start "/" = .ok [] :=
    start_eq_ok_iff.mpr ⟨by decide, by decide, by decide, by simp [Path.isAbsolute]⟩
  have hsegments : Path.segments "/" = ["", ""] := by decide
  have hleads : Leads fs.root maxLinks ["", ""] [] maxLinks [] :=
    .idle hroot rfl (.idle hroot rfl .here)
  have hfollow := hleads.follow_append []
  rw [List.append_nil, ← hsegments, follow] at hfollow
  simp [resolve, destination, hstart, bind, Except.bind, hfollow, Trail.location]

/-- A path that leads to the location of a node leads to the node. -/
theorem node?_of_resolve {path : String} (hresolve : fs.resolve path = .ok location)
    (hnode : fs.root.at? location = some node) : fs.node? path = .ok node := by
  simp only [node?, hresolve, bind, Except.bind, hnode]
  rfl

/-- A path that leads to nothing gives no bytes. -/
theorem read_of_resolve_eq_error {path : String} {cause : FileError}
    (hresolve : fs.resolve path = .error cause) : fs.read path = .error cause := by
  simp only [read, node?, hresolve, bind, Except.bind]

/-- A path that leads to a file gives its bytes. -/
theorem read_of_node? {path : String} {content : Bytes}
    (hnode : fs.node? path = .ok (.file content)) : fs.read path = .ok content := by
  simp only [read, hnode]
  rfl

end FileSystem

end JarCensus
