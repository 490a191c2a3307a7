import Mathlib.Data.List.TakeWhile
import RecordClient.Proofs.Query.Literal
import RecordClient.Proofs.Wire.Path
import RecordClient.Wire.Http
/-!
# What hosts bring along

A host without an at-sign brings no credentials (`credentials_of_read?`), and one without a slash,
question mark or hash brings neither a path nor a query (`base_of_read?`), so that requests ask for
their own path (`Client.target_of_unbroken`). Below another path, a request asks for its own
segments behind those of the host (`Request.target_below_base`).
-/
namespace RecordClient.Http

namespace Endpoint

/-- A host that stands before the port as a whole. -/
def Unbroken (host : String) : Prop := ∀ c ∈ host.toList, endsAuthority c = false

theorem read?_eq_some {host : String} {port : Nat} {e : Endpoint}
    (read : read? host port = some e) :
    e.credentials = credentials? (userInfo (authority host port)) ∧
      e.base = Path.ofText (pathText (behind host port)) ∧
      e.query = query? (behind host port) := by
  unfold read? at read
  generalize splitPort false (hostAndPort (authority host port)) = parts at read
  dsimp only at read
  split at read
  · rw [← Option.some.inj read]
    exact ⟨rfl, rfl, rfl⟩
  · cases read

/-! ### Credentials -/

theorem mem_start {host : String} {port : Nat} {c : Char} (member : c ∈ start host port) :
    c ∈ host.toList ∨ c = ':' ∨ c ∈ port.repr.toList ∨ c = '/' := by
  have inAddress := (List.mem_filter.mp ((List.dropWhile_suffix _).subset member)).1
  simpa [or_assoc] using inAddress

theorem userInfo_of_plain {authority : List Char} (plain : '@' ∉ authority) :
    userInfo authority = [] := by
  have whole : hostAndPort authority = authority := by
    rw [hostAndPort, List.takeWhile_eq_self_iff.mpr, List.reverse_reverse]
    intro c member
    rw [List.mem_reverse] at member
    simpa using ne_of_mem_of_not_mem member plain
  rw [userInfo, whole, Nat.sub_self]
  rfl

theorem credentials_of_read? {host : String} {port : Nat} {e : Endpoint}
    (read : read? host port = some e) (plain : '@' ∉ host.toList) : e.credentials = none := by
  have absent : '@' ∉ authority host port := by
    intro member
    rcases mem_start (List.takeWhile_subset _ member) with inHost | colon | inPort | slash
    · exact plain inHost
    · exact absurd colon (by decide)
    · exact absurd (Literal.numerals_repr port '@' inPort) (by decide)
    · exact absurd slash (by decide)
  rw [(read?_eq_some read).1, userInfo_of_plain absent]
  decide +kernel

/-! ### Paths and queries -/

theorem behind_of_unbroken {host : String} (unbroken : Unbroken host) (port : Nat) :
    behind host port = ['/'] := by
  -- Up to the slash at its end, no character of the address ends the part with host and port.
  let front := (host ++ ":" ++ port.repr).toList.filter (!Path.isDropped ·)
  have address : (host ++ ":" ++ port.repr ++ "/").toList.filter (!Path.isDropped ·) =
      front ++ ['/'] := by
    rw [String.toList_append, List.filter_append]
    rfl
  have stays : ∀ c ∈ front, endsAuthority c = false := by
    intro c member
    have inAddress := (List.mem_filter.mp member).1
    simp only [String.toList_append, List.mem_append] at inAddress
    rcases inAddress with (inHost | colon) | inPort
    · exact unbroken c inHost
    · rw [List.mem_singleton.mp colon]
      decide
    · have numeral := Literal.numerals_repr port c inPort
      by_contra ends
      simp only [endsAuthority, Path.isSlash, Bool.or_eq_false_iff, decide_eq_false_iff_not] at ends
      rcases (by tauto : c = '/' ∨ c = '\\' ∨ c = '?' ∨ c = '#') with rfl | rfl | rfl | rfl
      all_goals cases numeral
  have start_eq : start host port = front ++ ['/'] := by
    rw [start, address]
    cases first : front with
    | nil =>
      have colon : ':' ∈ front :=
        List.mem_filter.mpr ⟨by simp [String.toList_append], by decide⟩
      rw [first] at colon
      cases colon
    | cons c rest =>
      have own : endsAuthority c = false := stays c (by rw [first]; exact List.mem_cons_self)
      unfold endsAuthority at own
      simp only [Bool.or_eq_false_iff] at own
      rw [List.cons_append, List.dropWhile_cons_of_neg (by simp [own.1.1])]
  rw [behind, start_eq, List.dropWhile_append_of_pos fun c member => by simp [stays c member]]
  rfl

theorem base_of_read? {host : String} {port : Nat} {e : Endpoint}
    (read : read? host port = some e) (unbroken : Unbroken host) :
    e.base = Path.root ∧ e.query = none := by
  obtain ⟨-, base, query⟩ := read?_eq_some read
  rw [base, query, behind_of_unbroken unbroken]
  decide +kernel

/-! ### Resources below a path -/

theorem foldl_push_of_faithful {path : List String} {segments : List String}
    (faithful : ∀ s ∈ segments, Path.Faithful s) (some_segment : segments ≠ [])
    (named : segments.head?.map Path.encode ≠ some "") :
    segments.foldl Path.push path = Path.ahead path ++ segments.map Path.encode := by
  induction segments using List.reverseRecOn with
  | nil => exact absurd rfl some_segment
  | append_singleton segments segment ih =>
    rw [List.foldl_append, List.foldl_cons, List.foldl_nil,
      Path.push_of_faithful (faithful segment (by simp)), List.map_append]
    cases segments with
    | nil => simp
    | cons first rest =>
      have before := ih (fun s member => faithful s (List.mem_append_left _ member)) (by simp)
        (by simpa using named)
      have start : Path.ahead path ++ (first :: rest).map Path.encode ≠ Path.root := by
        intro same
        rcases List.append_eq_singleton_iff.mp same with ⟨-, only⟩ | ⟨-, none⟩
        · have empty : Path.encode first = "" := (List.cons.inj only).1
          exact named (by simp [empty])
        · cases none
      rw [before, Path.ahead_of_ne start]
      simp

/-- Faithful segments are added behind the path, of which only empty pieces at its end give way. -/
theorem extend_of_faithful {path segments : List String}
    (faithful : ∀ s ∈ segments, Path.Faithful s) (some_segment : segments ≠ [])
    (named : segments.head?.map Path.encode ≠ some "") :
    ∃ front, front <+: path ∧ Path.extend path segments = front ++ segments.map Path.encode := by
  unfold Path.extend
  dsimp only
  split
  · exact ⟨_, (Path.ahead_le _).trans (List.dropLast_prefix path),
      foldl_push_of_faithful faithful some_segment named⟩
  · exact ⟨_, Path.ahead_le path, foldl_push_of_faithful faithful some_segment named⟩

end Endpoint

/-! ### What is asked for -/

namespace Request

variable {r : Request}

theorem target_below_base (faithful : ∀ s ∈ r.route.segments, Path.Faithful s)
    (some_segment : r.route.segments ≠ [])
    (named : r.route.segments.head?.map Path.encode ≠ some "") :
    ∃ front, front <+: r.endpoint.base ∧
      r.target = Path.text (front ++ r.route.segments.map Path.encode)
        ++ (r.endpoint.query.map ("?" ++ ·)).getD "" := by
  obtain ⟨front, starts, same⟩ := Endpoint.extend_of_faithful faithful some_segment named
  exact ⟨front, starts, by rw [target, same]⟩

example : (Client.ofSettings { host := some "h/x" }).toOption.map
    (fun c => (c.request .health).target) = some "/x:8000/health" := by decide +kernel

theorem target_of_root (base : r.endpoint.base = Path.root) (query : r.endpoint.query = none) :
    r.target = r.path := by
  have own : Path.extend Path.root r.route.segments = Path.ofSegments r.route.segments := rfl
  rw [target, base, query, own]
  exact String.append_empty

end Request

/-- Requests to a plain host ask for their own path. -/
theorem Client.target_of_unbroken {s : Settings} {client : Client}
    (built : Client.ofSettings s = .ok client) (unbroken : Endpoint.Unbroken s.effectiveHost)
    (route : Route) : (client.request route).target = (client.request route).path := by
  unfold Client.ofSettings at built
  split at built
  · next e read =>
    cases built
    obtain ⟨base, query⟩ := Endpoint.base_of_read? read unbroken
    exact Request.target_of_root base query
  · cases built

end RecordClient.Http
