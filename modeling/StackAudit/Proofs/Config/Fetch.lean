import StackAudit.Config.Fetch

/-!
# Attempts of a fetch

The first answer that is a text ends a fetch. When all the answers it may ask for are failures, it
ends with the last of them. So what a client would answer behind the last call plays no part.
-/
namespace StackAudit

namespace Fetched

/-- Every answer before the given call is a failure. -/
def FailsBefore (client : FetchClient) (url : String) (call : Nat) : Prop :=
  ∀ j < call, ∃ cause, client url j = .error cause

/-- What the answers of a client make of a fetch that may call it `m` times. -/
inductive IsGiven (client : FetchClient) (url : String) (m : Nat) : Fetched → Prop where
  /-- The first text among the answers is fetched, with as many calls as its place. -/
  | text {k : Nat} {text : String} (hk : k < m) (hfails : FailsBefore client url k)
    (htext : client url k = .ok text) : IsGiven client url m ⟨.ok text, k + 1⟩
  /-- Where none of the answers is a text, the last one is reported. -/
  | failure {last : Nat} {cause : String} (hm : last + 1 = m) (hfails : FailsBefore client url last)
    (hlast : client url last = .error cause) : IsGiven client url m ⟨.error ⟨url, m, cause⟩, m⟩

variable {client other : FetchClient} {url : String}

theorem FailsBefore.succ {call : Nat} {cause : String} (h : FailsBefore client url call)
    (hcall : client url call = .error cause) : FailsBefore client url (call + 1) := by
  intro j hj
  by_cases hlt : j < call
  · exact h j hlt
  · obtain rfl : j = call := by omega
    exact ⟨cause, hcall⟩

theorem FailsBefore.congr {call : Nat} (h : FailsBefore client url call)
    (hsame : ∀ j < call, other url j = client url j) : FailsBefore other url call := by
  intro j hj
  rw [hsame j hj]
  exact h j hj

/-- No text comes before the place where another one is the first. -/
theorem FailsBefore.le_of_ok {call k : Nat} {text : String} (h : FailsBefore client url call)
    (htext : client url k = .ok text) : call ≤ k := by
  refine Nat.le_of_not_lt fun hlt => ?_
  obtain ⟨cause, hcause⟩ := h k hlt
  rw [htext] at hcause
  cases hcause

/-- The calls that are left end the fetch as it has to, if all calls so far failed. -/
theorem isGiven_tryFrom {call : Nat} (hfails : FailsBefore client url call) (more : Nat) :
    IsGiven client url (call + more + 1) (tryFrom client url call more) := by
  induction more generalizing call with
  | zero =>
    rw [tryFrom]
    cases hanswer : client url call with
    | ok text => exact .text (by omega) hfails hanswer
    | error cause => exact .failure rfl hfails hanswer
  | succ more ih =>
    rw [tryFrom]
    cases hanswer : client url call with
    | ok text => exact .text (by omega) hfails hanswer
    | error cause =>
      have hrest := ih (hfails.succ hanswer)
      rwa [show call + 1 + more + 1 = call + (more + 1) + 1 by omega] at hrest

namespace IsGiven

variable {m : Nat} {r r' : Fetched}

theorem unique (h : IsGiven client url m r) (h' : IsGiven client url m r') : r = r' := by
  cases h with
  | @text k text hk hfails htext =>
    cases h' with
    | @text k' text' _ hfails' htext' =>
      obtain rfl : k = k' := Nat.le_antisymm (hfails.le_of_ok htext') (hfails'.le_of_ok htext)
      rw [htext] at htext'
      cases htext'
      rfl
    | failure hm hfails' hlast =>
      have hle := (hfails'.succ hlast).le_of_ok htext
      omega
  | @failure last cause hm hfails hlast =>
    cases h' with
    | text hk' _ htext' =>
      have hle := (hfails.succ hlast).le_of_ok htext'
      omega
    | @failure last' cause' hm' _ hlast' =>
      obtain rfl : last = last' := by omega
      rw [hlast] at hlast'
      cases hlast'
      rfl

theorem message_eq {e : FetchError} (h : IsGiven client url m r) (he : r.outcome = .error e) :
    e.message = "fetch config from " ++ url ++ " after " ++ toString m ++ " attempt(s): " ++
      e.cause := by
  cases h with
  | text => cases he
  | failure =>
    cases he
    rfl

/-- A client that answers the calls in the same way makes the same of them. -/
theorem congr (h : IsGiven client url m r) (hsame : ∀ j < r.calls, other url j = client url j) :
    IsGiven other url m r := by
  cases h with
  | @text k _ hk hfails htext =>
    refine .text hk (hfails.congr fun j hj => hsame j (Nat.lt_succ_of_lt hj)) ?_
    rw [hsame k (Nat.lt_succ_self k), htext]
  | failure hm hfails hlast =>
    subst hm
    refine .failure rfl (hfails.congr fun j hj => hsame j (Nat.lt_succ_of_lt hj)) ?_
    rw [hsame _ (Nat.lt_succ_self _), hlast]

end IsGiven

end Fetched

namespace FetchClient

open Fetched (IsGiven)

theorem isGiven_fetch (client : FetchClient) (url : String) (attempts : Nat) :
    IsGiven client url (max attempts 1) (client.fetch url attempts) := by
  have hgiven : IsGiven client url (0 + (attempts - 1) + 1) (client.fetch url attempts) :=
    Fetched.isGiven_tryFrom (fun j hj => absurd hj (Nat.not_lt_zero j)) (attempts - 1)
  rwa [show 0 + (attempts - 1) + 1 = max attempts 1 by omega] at hgiven

/-- A fetch gives the first text among the answers to at most `max attempts 1` calls, and is over
with it; if there is none, it fails with the last answer, and names the address and the calls. What
the client would answer to further calls changes nothing. -/
theorem fetch_eq_iff (client : FetchClient) (url : String) (attempts : Nat) :
    (∀ r, client.fetch url attempts = r ↔ IsGiven client url (max attempts 1) r) ∧
      (∀ e, (client.fetch url attempts).outcome = .error e →
        e.message = "fetch config from " ++ url ++ " after " ++ toString (max attempts 1) ++
          " attempt(s): " ++ e.cause) ∧
      ∀ other : FetchClient,
        (∀ j < (client.fetch url attempts).calls, other url j = client url j) →
          other.fetch url attempts = client.fetch url attempts := by
  have hgiven := isGiven_fetch client url attempts
  refine ⟨fun r => ?_, fun e he => hgiven.message_eq he, fun other hsame => ?_⟩
  · constructor
    · rintro rfl
      exact hgiven
    · exact hgiven.unique
  · exact (isGiven_fetch other url attempts).unique (hgiven.congr hsame)

end FetchClient

end StackAudit
