import ForwardedIp.Metadata.Source
import ForwardedIp.Proofs.Basics
/-!
# Tags of delivered snapshots

A held request tells the server by a tag which state was seen last, and is answered once there is
another one. So a tag may be sent only after the snapshot that came with it was delivered, or the
change would be waited for that nobody has seen. The tag that is sent is that of the latest snapshot
that was delivered with one, and `NONE` after any failure.
-/
namespace ForwardedIp

/-- A fetch: what was asked, what came back, and what the caller got. -/
structure Fetch where
  request : HttpRequest
  reply : HttpReply
  result : Except Fault Snapshot

namespace Fetch

def Delivered (f : Fetch) : Prop := ∃ snapshot, f.result = .ok snapshot

/-- The reply carried a tag, and the tag can be read: it is visible ASCII, spaces and tabs. -/
def Carries (f : Fetch) (tag : String) : Prop :=
  (∃ status body, f.reply = .answered status (some tag) body) ∧
    ∀ c ∈ tag.toList, c = '\t' ∨ (0x20 ≤ c.toNat ∧ c.toNat < 0x7F)

/-- A tag came with the latest snapshot that was delivered with a readable one, and no fetch has
failed since then. -/
def Current (past : List Fetch) (tag : String) : Prop :=
  ∃ before f since, past = before ++ f :: since ∧ f.Delivered ∧ f.Carries tag ∧
    (∀ g ∈ since, g.Delivered → ∀ t, ¬ g.Carries t) ∧ ∀ g ∈ since, g.Delivered

variable {past : List Fetch} {f : Fetch} {tag : String}

theorem current_nil : ¬ Current [] tag := by
  rintro ⟨before, f, since, heq, -⟩
  cases before <;> cases heq

/-- One more fetch makes its own tag the current one, if it has one, and ends every tag if it
fails. -/
theorem current_append_singleton : Current (past ++ [f]) tag ↔
    f.Delivered ∧ (f.Carries tag ∨ (∀ t, ¬ f.Carries t) ∧ Current past tag) := by
  constructor
  · rintro ⟨before, g, since, heq, hdelivered, hcarries, hsilent, hsince⟩
    rcases last_or_earlier heq.symm with ⟨rfl, rfl, rfl⟩ | ⟨since, rfl, rfl⟩
    · exact ⟨hdelivered, .inl hcarries⟩
    · obtain ⟨hearlier, hlast⟩ := List.forall_mem_append.mp hsince
      obtain ⟨hquiet, hend⟩ := List.forall_mem_append.mp hsilent
      have hf := hlast f List.mem_cons_self
      exact ⟨hf, .inr ⟨hend f List.mem_cons_self hf, before, g, since, rfl, hdelivered, hcarries,
        hquiet, hearlier⟩⟩
  · rintro ⟨hf, hcarries | ⟨hnone, before, g, since, rfl, hg, hcarries, hsilent, hsince⟩⟩
    · exact ⟨past, f, [], rfl, hf, hcarries, by simp, by simp⟩
    · refine ⟨before, g, since ++ [f], by simp, hg, hcarries, ?_, ?_⟩
      · exact List.forall_mem_append.mpr ⟨hsilent, by simpa using fun _ => hnone⟩
      · exact List.forall_mem_append.mpr ⟨hsince, by simpa using hf⟩

end Fetch

/-- The values of a parameter of a request. -/
def HttpRequest.valuesOf (q : HttpRequest) (key : String) : List String :=
  (q.query.filter (·.1 = key)).map (·.2)

namespace MetadataSource
open Fetch

/-- The fetches that get some replies in order. -/
def fetches (s : MetadataSource) : List HttpReply → List Fetch
  | [] => []
  | r :: rs => ⟨s.request, r, (s.receive r).1⟩ :: (s.receive r).2.fetches rs

/-- The tag that a source remembers is the current one. -/
structure Tagged (s : MetadataSource) (past : List Fetch) : Prop where
  current : ∀ tag, Current past tag → s.etag = tag
  absent : (∀ tag, ¬ Current past tag) → s.etag = noTag

variable {s : MetadataSource} {past before after : List Fetch} {f : Fetch} {tag : String}
  {r : HttpReply} {replies : List HttpReply} {snapshot : Snapshot}

theorem valuesOf_request (h : s.waits = true) : s.request.valuesOf "last_etag" = [s.etag] := by
  simp [HttpRequest.valuesOf, request, h]

theorem readableTag?_eq_some {raw : String} : readableTag? raw = some tag ↔
    raw = tag ∧ ∀ c ∈ tag.toList, c = '\t' ∨ (0x20 ≤ c.toNat ∧ c.toNat < 0x7F) := by
  simp only [readableTag?, Option.ite_none_right_eq_some, Option.some.injEq, List.all_eq_true,
    Bool.or_eq_true, beq_iff_eq, Bool.and_eq_true, decide_eq_true_eq]
  constructor
  · rintro ⟨hreadable, rfl⟩
    exact ⟨rfl, hreadable⟩
  · rintro ⟨rfl, hreadable⟩
    exact ⟨hreadable, rfl⟩

/-- The tag of a reply that has a snapshot is the one that it carries, if that can be read. -/
theorem carries_iff {found : Option String} (h : decode r = .ok (snapshot, found)) :
    (⟨s.request, r, (s.receive r).1⟩ : Fetch).Carries tag ↔ found = some tag := by
  cases r with
  | failed text => cases h
  | answered status etag body =>
    have hfound : found = etag.bind readableTag? := by
      simp only [decode] at h
      split at h
      · cases hparse : Snapshot.parse body with
        | error fault =>
          rw [hparse] at h
          cases h
        | ok parsed =>
          rw [hparse] at h
          cases h
          rfl
      · cases h
    rw [hfound]
    cases etag with
    | none => simp [Carries]
    | some raw => simp [Carries, readableTag?_eq_some]

theorem Tagged.receive (h : s.Tagged past) (r : HttpReply) :
    (s.receive r).2.Tagged (past ++ [⟨s.request, r, (s.receive r).1⟩]) := by
  cases hdecode : decode r with
  | error fault =>
    have hreceive : s.receive r = (.error fault, { s with etag := noTag }) := by
      rw [MetadataSource.receive, hdecode]
    have hnone : ∀ tag, ¬ Current (past ++ [⟨s.request, r, (s.receive r).1⟩]) tag := by
      intro tag htag
      obtain ⟨⟨snapshot, hok⟩, -⟩ := current_append_singleton.mp htag
      rw [hreceive] at hok
      cases hok
    refine ⟨fun tag htag => absurd htag (hnone tag), fun _ => ?_⟩
    rw [hreceive]
  | ok found =>
    obtain ⟨snapshot, found⟩ := found
    have hreceive : s.receive r = (.ok snapshot, { s with etag := found.getD s.etag }) := by
      rw [MetadataSource.receive, hdecode]
    have hcurrent : ∀ tag, Current (past ++ [⟨s.request, r, (s.receive r).1⟩]) tag ↔
        found = some tag ∨ found = none ∧ Current past tag := by
      intro tag
      have hdelivered : (⟨s.request, r, (s.receive r).1⟩ : Fetch).Delivered :=
        ⟨snapshot, by rw [hreceive]⟩
      rw [current_append_singleton, and_iff_right hdelivered, carries_iff hdecode,
        Option.eq_none_iff_forall_ne_some]
      simp only [carries_iff hdecode, ne_eq]
    have hetag : (s.receive r).2.etag = found.getD s.etag := by rw [hreceive]
    cases found with
    | some tag =>
      refine ⟨fun t ht => ?_, fun hnone => absurd ((hcurrent tag).mpr (.inl rfl)) (hnone tag)⟩
      rcases (hcurrent t).mp ht with heq | ⟨heq, -⟩
      · rw [hetag]
        exact Option.some.inj heq
      · cases heq
    | none =>
      have hsame : ∀ tag, Current (past ++ [⟨s.request, r, (s.receive r).1⟩]) tag ↔
          Current past tag := fun tag => by simp [hcurrent tag]
      refine ⟨fun t ht => hetag.trans (h.current t ((hsame t).mp ht)), fun hnone => ?_⟩
      exact hetag.trans (h.absent fun t ht => hnone t ((hsame t).mpr ht))

theorem receive_waits (s : MetadataSource) (r : HttpReply) :
    (s.receive r).2.waits = s.waits := by
  unfold MetadataSource.receive
  cases decode r <;> rfl

/-- Every fetch asks with the tag that is current by then. -/
theorem exists_tagged (h : s.Tagged past) (hfetches : s.fetches replies = before ++ f :: after) :
    ∃ s' : MetadataSource, f.request = s'.request ∧ s'.waits = s.waits ∧
      s'.Tagged (past ++ before) := by
  induction replies generalizing s past before with
  | nil => cases before <;> cases hfetches
  | cons r replies ih =>
    cases before with
    | nil =>
      obtain ⟨rfl, -⟩ := List.cons.inj hfetches
      exact ⟨s, rfl, rfl, by rwa [List.append_nil]⟩
    | cons g before =>
      obtain ⟨rfl, hrest⟩ := List.cons.inj hfetches
      obtain ⟨s', hrequest, hwaits, htagged⟩ := ih (h.receive r) hrest
      rw [List.append_assoc] at htagged
      exact ⟨s', hrequest, hwaits.trans (s.receive_waits r), htagged⟩

theorem start_ok {c : MetadataConfig} {client : Option String} (h : start c client = .ok s) :
    s.waits = c.waitForChange ∧ s.etag = noTag := by
  unfold start at h
  split at h
  · cases h
  · split at h
    · cases h
    · split at h
      · cases h
      · cases h
        exact ⟨rfl, rfl⟩

/-- No change is acknowledged before it was delivered: a source that has its requests held sends
with each of them one tag, that of the latest snapshot that was delivered with a readable one if no
fetch failed since then, and `NONE` if there is no such snapshot. -/
theorem sent_tag_current {c : MetadataConfig} {client : Option String}
    (hstart : start c client = .ok s) (hwaits : c.waitForChange = true)
    (hfetches : s.fetches replies = before ++ f :: after) :
    ∃ tag, f.request.valuesOf "last_etag" = [tag] ∧
      (∀ t, Current before t → tag = t) ∧ ((∀ t, ¬ Current before t) → tag = noTag) ∧
      (tag ≠ noTag → ∃ g ∈ before, g.Delivered ∧ g.Carries tag) := by
  obtain ⟨hwaiting, hnone⟩ := start_ok hstart
  have hfresh : s.Tagged [] := ⟨fun tag htag => absurd htag current_nil, fun _ => hnone⟩
  obtain ⟨s', hrequest, hwaits', htagged⟩ := exists_tagged hfresh hfetches
  rw [List.nil_append] at htagged
  refine ⟨s'.etag, ?_, htagged.current, htagged.absent, fun hne => ?_⟩
  · rw [hrequest, valuesOf_request (hwaits'.trans (hwaiting.trans hwaits))]
  · by_cases hcurrent : ∃ t, Current before t
    · obtain ⟨t, hcurrent⟩ := hcurrent
      rw [htagged.current t hcurrent]
      obtain ⟨-, g, -, rfl, hdelivered, hcarries, -⟩ := hcurrent
      exact ⟨g, by simp, hdelivered, hcarries⟩
    · exact absurd (htagged.absent (not_exists.mp hcurrent)) hne

/-- A source whose requests are held, before its first one. -/
def heldSource : MetadataSource := ⟨"http://169.254.169.254/computeMetadata/v1/", true, 60, noTag⟩

/-- Three snapshots, of which the first comes with a tag, the second with none and the third with
one that cannot be read, and then a failure. -/
def heldReplies : List HttpReply :=
  [.answered 200 (some "etag-1") "{}", .answered 200 none "{}", .answered 200 (some "é") "{}",
    .answered 503 (some "etag-2") ""]

/-- The fourth request carries the tag of the first snapshot. -/
theorem tag_sent_after_silence : ∃ before f after,
    start {} none = .ok heldSource ∧ heldSource.fetches heldReplies = before ++ f :: after ∧
      before.length = 3 ∧ f.request.valuesOf "last_etag" = ["etag-1"] := by
  obtain ⟨before, f, after, hfetches, hbefore⟩ : ∃ before f after,
      heldSource.fetches heldReplies = before ++ f :: after ∧
        before = heldSource.fetches (heldReplies.take 3) := ⟨_, _, _, rfl, rfl⟩
  have hstart : start {} none = .ok heldSource := rfl
  obtain ⟨tag, hvalues, hcurrent, -⟩ := sent_tag_current hstart rfl hfetches
  have hreadable : readableTag? "etag-1" = some "etag-1" := by decide
  have htag : Current before "etag-1" := by
    refine ⟨[], _, _, hbefore, ⟨{}, rfl⟩, ⟨⟨200, "{}", rfl⟩, (readableTag?_eq_some.mp hreadable).2⟩,
      List.forall_mem_cons.mpr ⟨?_, List.forall_mem_singleton.mpr ?_⟩,
      List.forall_mem_cons.mpr ⟨⟨{}, rfl⟩, List.forall_mem_singleton.mpr ⟨{}, rfl⟩⟩⟩
    · rintro - t ⟨⟨status, body, heq⟩, -⟩
      cases heq
    · rintro - t ⟨⟨status, body, heq⟩, hvisible⟩
      cases heq
      exact absurd (readableTag?_eq_some.mpr ⟨rfl, hvisible⟩) (by decide)
  rw [hcurrent "etag-1" htag] at hvalues
  exact ⟨before, f, after, hstart, hfetches, by rw [hbefore]; rfl, hvalues⟩

end MetadataSource
end ForwardedIp
