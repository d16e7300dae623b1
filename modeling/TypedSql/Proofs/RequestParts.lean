import Mathlib.Data.List.Basic
import TypedSql.Json.Request
import TypedSql.Proofs.Steps

/-!
# What the text of a request gives

A text gives parts of a request: an object under their keys, an array by their places
(`Json.givenParts`). A text that is read gives each part at most once, so the request has in each part
what the one node for it says, or nothing. Two texts that give the same node for a part are therefore
read to requests with the same part, whatever else stands in the texts and in which order
(`Json.sameAt_of_same_nodes`).
-/

namespace TypedSql.Json

variable {op : Operation} {r r' s s' : Request} {part : Part} {node : Node}

/-! ### Single parts -/

/-- Two requests are the same in one part. -/
def SameAt (r r' : Request) : Part → Prop
  | .data => r.data = r'.data
  | .filter => r.filter = r'.filter
  | .mapping => r.mapping = r'.mapping
  | .table => r.table = r'.table
  | .select => r.select = r'.select
  | .order => r.order = r'.order
  | .offset => r.offset = r'.offset
  | .count => r.count = r'.count

theorem SameAt.refl (r : Request) (part : Part) : SameAt r r part := by
  cases part <;> rfl

theorem SameAt.symm (h : SameAt r r' part) : SameAt r' r part := by
  cases part <;> exact Eq.symm h

theorem SameAt.trans (h : SameAt r r' part) (h' : SameAt r' s part) : SameAt r s part := by
  cases part <;> exact Eq.trans h h'

/-- Reading a part leaves the others as they are. -/
theorem sameAt_of_withPart_ne {other : Part} (h : withPart r node part = .ok r') (hne : other ≠ part) :
    SameAt r' r other := by
  cases part
  all_goals
    simp only [withPart, except_bind_def, except_pure_def, bind_eq_ok_iff, Except.ok.injEq] at h
    obtain ⟨value, -, rfl⟩ := h
    cases other <;> first | rfl | exact absurd rfl hne

/-- What is read for a part depends on the node alone. -/
theorem sameAt_of_withPart (h : withPart r node part = .ok r') (h' : withPart s node part = .ok s') :
    SameAt r' s' part := by
  cases part
  all_goals
    simp only [withPart, except_bind_def, except_pure_def, bind_eq_ok_iff, Except.ok.injEq] at h h'
    obtain ⟨value, hvalue, rfl⟩ := h
    obtain ⟨value', hvalue', rfl⟩ := h'
    exact Except.ok.inj (hvalue.symm.trans hvalue')

/-! ### Lists of parts -/

/-- Reads nodes into a request one after the other, each as its part. -/
def readParts (r : Request) : List (Part × Node) → Except Fault Request
  | [] => .ok r
  | (part, node) :: rest => (withPart r node part).bind fun r => readParts r rest

/-- A part that no node is for stays as it is. -/
theorem sameAt_of_notMem {given : List (Part × Node)} (h : readParts r given = .ok r')
    (hpart : part ∉ given.map Prod.fst) : SameAt r' r part := by
  induction given generalizing r with
  | nil =>
    obtain rfl := Except.ok.inj h
    exact .refl ..
  | cons head rest ih =>
    obtain ⟨first, hfirst, hrest⟩ := bind_eq_ok_iff.mp h
    rw [List.map_cons, List.mem_cons, not_or] at hpart
    exact (ih hrest hpart.2).trans (sameAt_of_withPart_ne hfirst hpart.1)

/-- A part that one node is for is what the node says. -/
theorem sameAt_of_mem {given : List (Part × Node)} (h : readParts r given = .ok r')
    (hnodup : (given.map Prod.fst).Nodup) (hmem : (part, node) ∈ given) :
    ∃ s s', withPart s node part = .ok s' ∧ SameAt r' s' part := by
  induction given generalizing r with
  | nil => cases hmem
  | cons head rest ih =>
    obtain ⟨first, hfirst, hrest⟩ := bind_eq_ok_iff.mp h
    rw [List.map_cons, List.nodup_cons] at hnodup
    rcases List.mem_cons.mp hmem with rfl | hmem
    · exact ⟨r, first, hfirst, sameAt_of_notMem hrest hnodup.1⟩
    · exact ih hrest hnodup.2 hmem

/-! ### Texts -/

/-- The parts that members are for; keys that name none are passed over. -/
def memberParts (op : Operation) (members : List (Option String × Node)) : List (Part × Node) :=
  members.filterMap fun member => (member.1.bind (Part.ofKey? op)).map (·, member.2)

/-- The parts that a text gives, each with its node. -/
def givenParts (op : Operation) (text : String) : List (Part × Node) :=
  match outline text with
  | .object members _ => memberParts op members
  | .array items _ => (Part.ofOperation op).zip items
  | .other => []

/-- Members are read as parts of which none stands twice, or again. -/
theorem readParts_of_readMembers {seen : List Part} {members : List (Option String × Node)}
    (h : readMembers op seen r members = .ok r') :
    readParts r (memberParts op members) = .ok r' ∧
      ((memberParts op members).map Prod.fst).Nodup ∧
      ∀ part ∈ seen, part ∉ (memberParts op members).map Prod.fst := by
  induction members generalizing seen r with
  | nil => exact ⟨h, List.nodup_nil, fun _ _ => List.not_mem_nil⟩
  | cons member rest ih =>
    obtain ⟨_ | key, node⟩ := member
    · cases h
    · rw [readMembers] at h
      cases hpart : Part.ofKey? op key with
      | none =>
        rw [hpart] at h
        have hskip : memberParts op ((some key, node) :: rest) = memberParts op rest := by
          simp [memberParts, hpart]
        rw [hskip]
        exact ih h
      | some part =>
        simp only [hpart, List.contains_eq_mem, decide_eq_true_eq] at h
        split at h
        · cases h
        · next hseen =>
          obtain ⟨first, hfirst, hrest⟩ := bind_eq_ok_iff.mp h
          obtain ⟨hread, hnodup, hnotMem⟩ := ih hrest
          have htake : memberParts op ((some key, node) :: rest) =
              (part, node) :: memberParts op rest := by
            simp [memberParts, hpart]
          rw [htake, List.map_cons]
          refine ⟨bind_eq_ok_iff.mpr ⟨first, hfirst, hread⟩,
            List.nodup_cons.mpr ⟨hnotMem part List.mem_cons_self, hnodup⟩, fun other hother => ?_⟩
          rw [List.mem_cons, not_or]
          refine ⟨?_, hnotMem other (List.mem_cons_of_mem part hother)⟩
          rintro rfl
          exact hseen hother

/-- Items are read as the parts in front of which they stand. -/
theorem readParts_of_readItems {parts : List Part} {items : List Node}
    (h : readItems r parts items = .ok r') :
    readParts r (parts.zip items) = .ok r' ∧ ((parts.zip items).map Prod.fst).Sublist parts := by
  induction items generalizing r parts with
  | nil =>
    rw [List.zip_nil_right]
    exact ⟨by cases parts <;> exact h, List.nil_sublist parts⟩
  | cons node rest ih =>
    cases parts with
    | nil => cases h
    | cons part parts =>
      obtain ⟨first, hfirst, hrest⟩ := bind_eq_ok_iff.mp h
      obtain ⟨hread, hsublist⟩ := ih hrest
      exact ⟨bind_eq_ok_iff.mpr ⟨first, hfirst, hread⟩, hsublist.cons_cons part⟩

theorem nodup_ofOperation (op : Operation) : (Part.ofOperation op).Nodup := by
  cases op <;> decide

/-- A text that is read gives each part at most once, and is read part by part. -/
theorem readParts_of_requestOfText {text : String} (h : requestOfText op text = .ok r) :
    readParts .empty (givenParts op text) = .ok r ∧ ((givenParts op text).map Prod.fst).Nodup := by
  have hwhole {read : Except Fault Request} {whole : Bool}
      (h : (read.bind fun r => if whole = true then .ok r else .error .malformed) = .ok r) :
      read = .ok r := by
    obtain ⟨r', hread, hend⟩ := bind_eq_ok_iff.mp h
    split at hend
    · rwa [Except.ok.inj hend] at hread
    · cases hend
  unfold requestOfText at h
  unfold givenParts
  cases houtline : outline text with
  | object members whole =>
    rw [houtline] at h
    obtain ⟨hread, hnodup, -⟩ := readParts_of_readMembers (hwhole h)
    exact ⟨hread, hnodup⟩
  | array items whole =>
    rw [houtline] at h
    obtain ⟨hread, hsublist⟩ := readParts_of_readItems (hwhole h)
    exact ⟨hread, (nodup_ofOperation op).sublist hsublist⟩
  | other =>
    rw [houtline] at h
    cases h

/-- Two lists that have the same nodes for a part are read to the same part. -/
theorem sameAt_of_same_nodes {given given' : List (Part × Node)}
    (h : readParts r given = .ok s) (h' : readParts r given' = .ok s')
    (hnodup : (given.map Prod.fst).Nodup) (hnodup' : (given'.map Prod.fst).Nodup)
    (hsame : ∀ node, (part, node) ∈ given ↔ (part, node) ∈ given') : SameAt s s' part := by
  by_cases hpart : part ∈ given.map Prod.fst
  · obtain ⟨⟨_, node⟩, hmem, rfl⟩ := List.mem_map.mp hpart
    obtain ⟨t, t', ht, hst⟩ := sameAt_of_mem h hnodup hmem
    obtain ⟨u, u', hu, hsu⟩ := sameAt_of_mem h' hnodup' ((hsame node).mp hmem)
    exact (hst.trans (sameAt_of_withPart ht hu)).trans hsu.symm
  · have hpart' : part ∉ given'.map Prod.fst := by
      intro hmem
      obtain ⟨⟨_, node⟩, hmem', rfl⟩ := List.mem_map.mp hmem
      exact hpart (List.mem_map.mpr ⟨_, (hsame node).mpr hmem', rfl⟩)
    exact (sameAt_of_notMem h hpart).trans (sameAt_of_notMem h' hpart').symm

end TypedSql.Json
