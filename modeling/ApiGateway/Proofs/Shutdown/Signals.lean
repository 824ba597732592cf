import ApiGateway.Shutdown
import Mathlib.Algebra.GroupWithZero.Nat
import Mathlib.Data.List.Induction

/-! Every signal is accounted for. What a receiver was given, what it was told that it missed and
what is still pending for it are together the triggers since it subscribed, and what is pending
decides what it receives next. Triggers, places and coordinators are counted over the operations
alone, whatever these were answered. -/

namespace ApiGateway
namespace Shutdown

/-! ## What was asked for -/

def Operation.leaving (n : Nat) : Operation → Nat
  | .copy => if n = 0 then 0 else n + 1
  | .close => n - 1
  | _ => n

def leaving (n : Nat) (operations : List Operation) : Nat :=
  operations.foldl (fun n operation => operation.leaving n) n

def coordinatorsAfter (operations : List Operation) : Nat := leaving 1 operations

/-- How often an operation is asked for of a coordinator that is still there, of `n` at first. -/
def asked (wanted : Operation) (n : Nat) : List Operation → Nat
  | [] => 0
  | operation :: rest =>
    (if operation = wanted ∧ 0 < n then 1 else 0) + asked wanted (operation.leaving n) rest

def triggers (operations : List Operation) : Nat := asked .trigger 1 operations

inductive Role where
  | receiver
  | waiter

namespace Role

def places (s : Shutdown) : Role → List (Option Nat)
  | .receiver => s.receivers
  | .waiter => s.waiters

def join : Role → Operation
  | .receiver => .subscribe
  | .waiter => .signalled

def look (place : Nat) : Role → Operation
  | .receiver => .receive place
  | .waiter => .poll place

def drop (place : Nat) : Role → Operation
  | .receiver => .dropReceiver place
  | .waiter => .dropWaiter place

def joins (role : Role) (operations : List Operation) : Nat := asked role.join 1 operations

end Role

/-- What an operation on a coordinator is answered, as long as there is one: listeners get places
in the order in which they come. -/
def Operation.granted? (operations : List Operation) : Operation → Option Answer
  | .subscribe => some (.place (Role.receiver.joins operations))
  | .signalled => some (.place (Role.waiter.joins operations))
  | .trigger => some .triggered
  | .clone | .copy => some .cloned
  | .close => some .closed
  | _ => none

/-! ## Histories -/

def history (s : Shutdown) : List Operation → List (Operation × Answer)
  | [] => []
  | operation :: rest =>
    (operation, (s.perform operation).1) :: (s.perform operation).2.history rest

def received (place : Nat) (history : List (Operation × Answer)) : Nat :=
  history.count (.receive place, .signal)

def lag (place : Nat) : Operation × Answer → Nat
  | (.receive other, .lagged n) => if other = place then n else 0
  | _ => 0

def missed (place : Nat) (history : List (Operation × Answer)) : Nat :=
  (history.map (lag place)).sum

/-- How many of the signals sent since it subscribed the receiver at a place has yet to account for;
`since` is what happened since then. -/
def pending (place sent : Nat) (since : List (Operation × Answer)) : Nat :=
  sent - (received place since + missed place since)

def leaves (entry : Operation × Answer) : Bool := entry.2 = .dropped true || entry.2 = .ready

namespace Role

def ends (place : Nat) : Role → Operation × Answer → Bool
  | .receiver, entry => entry.1 = .dropReceiver place
  | .waiter, entry => entry.1 = .dropWaiter place || entry = (.poll place, .ready)

def accounted (place : Nat) (history : List (Operation × Answer)) : Role → Nat
  | .receiver => received place history + missed place history
  | .waiter => 0

/-- The listener that came after the operations `before` is there, and `since` is what happened
since it came. -/
structure Listens (role : Role) (operations before : List Operation)
    (since : List (Operation × Answer)) : Prop where
  came : ∃ after, operations = before ++ role.join :: after ∧
    since = ((start.run before).perform role.join).2.history after
  granted : 0 < coordinatorsAfter before
  stays : ∀ entry ∈ since, role.ends (role.joins before) entry = false

end Role

/-- The number of signals sent since a receiver subscribed and what happened since then decide what
it receives next, and leave at most one signal pending after that. -/
structure Accounts (s : Shutdown) (place sent : Nat) (since : List (Operation × Answer)) :
    Prop where
  conserved : received place since + missed place since + pending place sent since = sent
  lagged : ∀ n, (s.perform (.receive place)).1 = .lagged n ↔
    1 ≤ n ∧ pending place sent since = n + 1
  signal : (s.perform (.receive place)).1 = .signal ↔ pending place sent since = 1
  empty : (s.perform (.receive place)).1 = .empty ↔
    pending place sent since = 0 ∧ 0 < s.coordinators
  closed : (s.perform (.receive place)).1 = .channelClosed ↔
    pending place sent since = 0 ∧ s.coordinators = 0
  remaining : pending place sent (since ++ [(.receive place, (s.perform (.receive place)).1)]) =
    if 2 ≤ pending place sent since then 1 else 0

def Answer.isQuiet : Answer → Bool
  | .signal | .lagged _ => false
  | _ => true

def Answer.isIdle : Answer → Bool
  | .absent | .empty | .channelClosed | .pending => true
  | _ => false

def Operation.isDrop : Operation → Bool
  | .dropReceiver _ | .dropWaiter _ => true
  | _ => false

def Operation.isAsked : Operation → Bool
  | .receive _ | .poll _ | .dropReceiver _ | .dropWaiter _ => false
  | _ => true

inductive Effect (s : Shutdown) : Operation → Answer → Shutdown → Prop where
  | idle {operation answer} (hidle : answer.isIdle = true) (hkeeps : operation.isDrop = false)
      (hclosed : operation.isAsked = true → s.isOpen = false) : Effect s operation answer s
  | subscribe (hopen : s.isOpen = true) :
      Effect s .subscribe (.place s.receivers.length)
        { s with receivers := s.receivers ++ [some s.sent] }
  | signalled (hopen : s.isOpen = true) :
      Effect s .signalled (.place s.waiters.length)
        { s with waiters := s.waiters ++ [some s.sent] }
  | trigger (hopen : s.isOpen = true) : Effect s .trigger .triggered { s with sent := s.sent + 1 }
  | clone (hopen : s.isOpen = true) : Effect s .clone .cloned s
  | copy (hopen : s.isOpen = true) :
      Effect s .copy .cloned { s with coordinators := s.coordinators + 1 }
  | close (hopen : s.isOpen = true) :
      Effect s .close .closed { s with coordinators := s.coordinators - 1 }
  | signal {place first} (hlistens : listener? s.receivers place = some first)
      (hsent : first + 1 ≤ s.sent) : Effect s (.receive place) .signal (s.account place (first + 1))
  | lagged {place first n} (hlistens : listener? s.receivers place = some first)
      (hsent : s.sent = first + n + s.capacity) :
      Effect s (.receive place) (.lagged n) (s.account place (first + n))
  | ready {place first} (hlistens : listener? s.waiters place = some first)
      (hready : first < s.sent ∨ s.isOpen = false) :
      Effect s (.poll place) .ready { s with waiters := s.waiters.set place none }
  | dropReceiver {place} :
      Effect s (.dropReceiver place) (.dropped (listener? s.receivers place).isSome)
        { s with receivers := s.receivers.set place none }
  | dropWaiter {place} :
      Effect s (.dropWaiter place) (.dropped (listener? s.waiters place).isSome)
        { s with waiters := s.waiters.set place none }

variable {s next : Shutdown} {operation : Operation} {answer : Answer} {role : Role}
  {place n : Nat} {places : List (Option Nat)} {operations before : List Operation}
  {since : List (Operation × Answer)}

theorem run_append (s : Shutdown) (before after : List Operation) :
    s.run (before ++ after) = (s.run before).run after := List.foldl_append

theorem history_cons (s : Shutdown) (operation : Operation) (rest : List Operation) :
    s.history (operation :: rest) =
      [(operation, (s.perform operation).1)] ++ (s.perform operation).2.history rest := rfl

theorem history_append (s : Shutdown) (before after : List Operation) :
    s.history (before ++ after) = s.history before ++ (s.run before).history after := by
  induction before generalizing s with
  | nil => rfl
  | cons operation rest ih => exact congrArg (_ :: ·) (ih _)

theorem Role.accounted_append (role : Role) (place : Nat)
    (before after : List (Operation × Answer)) :
    role.accounted place (before ++ after) =
      role.accounted place before + role.accounted place after := by
  cases role with
  | waiter => rfl
  | receiver =>
    simp only [accounted, received, missed, List.count_append, List.map_append, List.sum_append]
    omega

/-! ## Places -/

theorem listener?_concat (places : List (Option Nat)) (n place : Nat) :
    listener? (places ++ [some n]) place =
      if place = places.length then some n else listener? places place := by
  unfold listener?
  rcases Nat.lt_trichotomy place places.length with hlt | rfl | hgt
  · rw [List.getElem?_append_left hlt, if_neg (Nat.ne_of_lt hlt)]
  · rw [List.getElem?_concat_length, if_pos rfl]
    rfl
  · rw [if_neg (Nat.ne_of_gt hgt), List.getElem?_eq_none (Nat.le_of_lt hgt),
      List.getElem?_eq_none (by rw [List.length_append]; exact hgt)]

theorem listener?_set_none (places : List (Option Nat)) (other place : Nat) :
    listener? (places.set other none) place =
      if other = place then none else listener? places place := by
  unfold listener?
  rw [List.getElem?_set]
  split
  · split <;> rfl
  · rfl

theorem lt_length_of_listener? (h : listener? places place = some n) : place < places.length := by
  by_contra hge
  rw [listener?, List.getElem?_eq_none (Nat.not_lt.mp hge)] at h
  cases h

theorem listener?_concat_of_listener? (h : listener? places place = some n) (m : Nat) :
    listener? (places ++ [some m]) place = some n := by
  rw [listener?_concat, if_neg (Nat.ne_of_lt (lt_length_of_listener? h)), h]

theorem listener?_set_some {other m : Nat} (h : listener? places other = some m) (n place : Nat) :
    listener? (places.set other (some n)) place =
      if other = place then some n else listener? places place := by
  unfold listener?
  rw [List.getElem?_set, if_pos (lt_length_of_listener? h)]
  split <;> rfl

theorem eq_or_isSome_of_concat {m : Nat} (h : listener? (places ++ [some m]) place = some n) :
    place = places.length ∨ (listener? places place).isSome := by
  rw [listener?_concat] at h
  split at h
  next heq => exact .inl heq
  next => exact .inr (Option.isSome_of_mem h)

theorem isSome_and_ne_of_set_none {other : Nat}
    (h : listener? (places.set other none) place = some n) :
    (listener? places place).isSome ∧ other ≠ place := by
  rw [listener?_set_none] at h
  split at h
  next => cases h
  next hne => exact ⟨Option.isSome_of_mem h, hne⟩

theorem isSome_of_set_some {other m k : Nat} (hother : listener? places other = some m)
    (h : listener? (places.set other (some k)) place = some n) :
    (listener? places place).isSome := by
  rw [listener?_set_some hother] at h
  split at h
  next heq => exact Option.isSome_of_mem (heq ▸ hother)
  next => exact Option.isSome_of_mem h

theorem length_filter_set_none (places : List (Option Nat)) (place : Nat) :
    ((places.set place none).filter Option.isSome).length +
      (if (listener? places place).isSome then 1 else 0) =
        (places.filter Option.isSome).length := by
  induction places generalizing place with
  | nil => rfl
  | cons first rest ih =>
    cases place with
    | zero => cases first <;> simp [listener?]
    | succ place =>
      have hrest : listener? (first :: rest) (place + 1) = listener? rest place := rfl
      rw [hrest, List.set_cons_succ]
      have := ih place
      cases first <;> simp <;> omega

theorem length_filter_set_some {m : Nat} (h : listener? places place = some m) (n : Nat) :
    ((places.set place (some n)).filter Option.isSome).length =
      (places.filter Option.isSome).length := by
  induction places generalizing place with
  | nil => cases h
  | cons first rest ih =>
    cases place with
    | zero =>
      obtain rfl : first = some m := h
      rfl
    | succ place =>
      have hrest := ih h
      cases first <;> simp [hrest]

/-! ## Operations by cases -/

theorem effect_whileOpen {result : Answer × Shutdown} (hkeeps : operation.isDrop = false)
    (h : s.isOpen = true → s.Effect operation result.1 result.2) :
    s.Effect operation (s.whileOpen result).1 (s.whileOpen result).2 := by
  unfold whileOpen
  split
  next hopen => exact h hopen
  next hclosed => exact .idle rfl hkeeps fun _ => Bool.eq_false_iff.mpr hclosed

theorem effect_receiveFrom {first : Nat} (hlistens : listener? s.receivers place = some first) :
    s.Effect (.receive place) (s.receiveFrom place first).1 (s.receiveFrom place first).2 := by
  simp only [receiveFrom]
  split
  next => exact .idle (by split <;> rfl) rfl nofun
  next =>
    split
    next =>
      have hkept : s.sent - s.capacity = first + (s.sent - first - s.capacity) := by omega
      rw [hkept]
      exact .lagged hlistens (by omega)
    next => exact .signal hlistens (by omega)

theorem effect_pollFrom {first : Nat} (hlistens : listener? s.waiters place = some first) :
    s.Effect (.poll place) (s.pollFrom place first).1 (s.pollFrom place first).2 := by
  unfold pollFrom
  split
  next h => exact .ready hlistens (by simpa using h)
  next => exact .idle rfl rfl nofun

theorem effect (s : Shutdown) (operation : Operation) :
    s.Effect operation (s.perform operation).1 (s.perform operation).2 := by
  cases operation with
  | subscribe => exact effect_whileOpen rfl .subscribe
  | signalled => exact effect_whileOpen rfl .signalled
  | trigger => exact effect_whileOpen rfl .trigger
  | clone => exact effect_whileOpen rfl .clone
  | copy => exact effect_whileOpen rfl .copy
  | close => exact effect_whileOpen rfl .close
  | receive place =>
    simp only [perform]
    split
    next hlistens => exact effect_receiveFrom hlistens
    next => exact .idle rfl rfl nofun
  | poll place =>
    simp only [perform]
    split
    next hlistens => exact effect_pollFrom hlistens
    next => exact .idle rfl rfl nofun
  | dropReceiver => exact .dropReceiver
  | dropWaiter => exact .dropWaiter

/-! ## What an operation counts for -/

theorem pos_of_isOpen (h : s.isOpen = true) : 0 < s.coordinators := of_decide_eq_true h

theorem eq_zero_of_isOpen (h : s.isOpen = false) : s.coordinators = 0 :=
  Nat.eq_zero_of_not_pos (of_decide_eq_false h)

theorem not_asked_of_closed {wanted : Operation} (hwanted : wanted.isAsked = true)
    (hclosed : operation.isAsked = true → s.isOpen = false) :
    (if operation = wanted ∧ 0 < s.coordinators then 1 else 0) = 0 := by
  refine if_neg ?_
  rintro ⟨rfl, hopen⟩
  exact Nat.ne_of_gt hopen (eq_zero_of_isOpen (hclosed hwanted))

theorem Effect.coordinators_eq (h : s.Effect operation answer next) :
    next.coordinators = operation.leaving s.coordinators := by
  cases h with
  | idle _ _ hclosed =>
    cases operation with
    | copy | close =>
      have hnone := eq_zero_of_isOpen (hclosed rfl)
      simp [Operation.leaving, hnone]
    | _ => rfl
  | copy hopen => exact (if_neg (Nat.ne_of_gt (pos_of_isOpen hopen))).symm
  | _ => rfl

theorem Effect.capacity_eq (h : s.Effect operation answer next) : next.capacity = s.capacity := by
  cases h <;> rfl

theorem Effect.sent_eq (h : s.Effect operation answer next) :
    next.sent = s.sent + if operation = .trigger ∧ 0 < s.coordinators then 1 else 0 := by
  cases h with
  | idle _ _ hclosed => rw [not_asked_of_closed rfl hclosed]; rfl
  | trigger hopen => simp [pos_of_isOpen hopen]
  | _ => simp [account]

theorem Effect.length_places_eq (h : s.Effect operation answer next) :
    (role.places next).length =
      (role.places s).length + if operation = role.join ∧ 0 < s.coordinators then 1 else 0 := by
  cases h with
  | idle _ _ hclosed => rw [not_asked_of_closed (by cases role <;> rfl) hclosed]; rfl
  | subscribe hopen | signalled hopen =>
    cases role <;> simp [Role.places, Role.join, pos_of_isOpen hopen]
  | _ => cases role <;> simp [Role.places, Role.join, account]

theorem Effect.listeners_eq (h : s.Effect operation answer next) :
    next.listeners + [(operation, answer)].countP leaves =
      s.listeners + (if operation = .subscribe ∧ 0 < s.coordinators then 1 else 0) +
        if operation = .signalled ∧ 0 < s.coordinators then 1 else 0 := by
  cases h with
  | idle hidle _ hclosed =>
    rw [not_asked_of_closed rfl hclosed, not_asked_of_closed rfl hclosed]
    cases answer with
    | absent | empty | channelClosed | pending => rfl
    | _ => cases hidle
  | trigger | clone | copy | close => rfl
  | subscribe hopen | signalled hopen =>
    simp [listeners, leaves, pos_of_isOpen hopen]; omega
  | signal hlistens | lagged hlistens =>
    simp only [listeners, account, length_filter_set_some hlistens]
    rfl
  | @ready place _ hlistens =>
    have := length_filter_set_none s.waiters place
    simp [listeners, leaves, hlistens] at this ⊢; omega
  | @dropReceiver place =>
    have := length_filter_set_none s.receivers place
    simp [listeners, leaves] at this ⊢; omega
  | @dropWaiter place =>
    have := length_filter_set_none s.waiters place
    simp [listeners, leaves] at this ⊢; omega

/-! ## Listeners -/

theorem Role.accounted_of_isQuiet (hquiet : answer.isQuiet = true) :
    role.accounted place [(operation, answer)] = 0 := by
  cases role with
  | waiter => rfl
  | receiver =>
    have hreceived : received place [(operation, answer)] = 0 := by
      refine List.count_eq_zero.mpr fun hmem => ?_
      obtain ⟨-, rfl⟩ := Prod.mk.inj (List.mem_singleton.mp hmem)
      cases hquiet
    have hlag : lag place (operation, answer) = 0 := by
      unfold lag
      split
      next heq =>
        obtain ⟨-, rfl⟩ := Prod.mk.inj heq
        cases hquiet
      next => rfl
    simp only [accounted, hreceived, missed, List.map_cons, hlag]
    rfl

theorem Role.accounted_signal (other : Nat) :
    receiver.accounted place [(.receive other, .signal)] = if other = place then 1 else 0 := by
  by_cases h : other = place <;> simp [accounted, received, missed, lag, h]

theorem Role.accounted_lagged (other : Nat) :
    receiver.accounted place [(.receive other, .lagged n)] = if other = place then n else 0 := by
  by_cases h : other = place <;> simp [accounted, received, missed, lag, h]

theorem listener_account {other first gained : Nat}
    (hfirst : listener? s.receivers other = some first) (hgained : first + gained ≤ s.sent)
    (hlistens : listener? s.receivers place = some n) (hle : n ≤ s.sent) :
    listener? (s.account other (first + gained)).receivers place =
        some (n + if other = place then gained else 0) ∧
      n + (if other = place then gained else 0) ≤ s.sent := by
  simp only [account, listener?_set_some hfirst]
  split
  next heq =>
    subst heq
    obtain rfl := Option.some.inj (hfirst.symm.trans hlistens)
    exact ⟨rfl, hgained⟩
  next => exact ⟨hlistens, hle⟩

theorem Role.ne_of_ends {other : Nat} (hstays : role.ends place (operation, answer) = false)
    (hends : role.ends other (operation, answer) = true) : other ≠ place := by
  rintro rfl
  rw [hstays] at hends
  cases hends

theorem Effect.listener_of_isQuiet (h : s.Effect operation answer next)
    (hquiet : answer.isQuiet = true) (hlistens : listener? (role.places s) place = some n)
    (hstays : role.ends place (operation, answer) = false) :
    listener? (role.places next) place = some n := by
  cases h with
  | idle | trigger | clone | copy | close => cases role <;> exact hlistens
  | signal | lagged => cases hquiet
  | subscribe =>
    cases role with
    | receiver => exact listener?_concat_of_listener? hlistens _
    | waiter => exact hlistens
  | signalled =>
    cases role with
    | receiver => exact hlistens
    | waiter => exact listener?_concat_of_listener? hlistens _
  | @ready other | @dropWaiter other =>
    cases role with
    | receiver => exact hlistens
    | waiter =>
      have hne : other ≠ place := Role.ne_of_ends hstays (by simp [Role.ends])
      exact (listener?_set_none _ _ _).trans ((if_neg hne).trans hlistens)
  | @dropReceiver other =>
    cases role with
    | receiver =>
      have hne : other ≠ place := Role.ne_of_ends hstays (by simp [Role.ends])
      exact (listener?_set_none _ _ _).trans ((if_neg hne).trans hlistens)
    | waiter => exact hlistens

theorem Effect.listener (h : s.Effect operation answer next)
    (hlistens : listener? (role.places s) place = some n) (hle : n ≤ s.sent)
    (hstays : role.ends place (operation, answer) = false) :
    listener? (role.places next) place = some (n + role.accounted place [(operation, answer)]) ∧
      n + role.accounted place [(operation, answer)] ≤ next.sent := by
  cases hquiet : answer.isQuiet with
  | true =>
    rw [Role.accounted_of_isQuiet hquiet, h.sent_eq]
    exact ⟨h.listener_of_isQuiet hquiet hlistens hstays, Nat.le_add_right_of_le hle⟩
  | false =>
    cases h with
    | signal hfirst hsent =>
      cases role with
      | waiter => exact ⟨hlistens, hle⟩
      | receiver =>
        rw [Role.accounted_signal]
        exact listener_account hfirst hsent hlistens hle
    | lagged hfirst hsent =>
      cases role with
      | waiter => exact ⟨hlistens, hle⟩
      | receiver =>
        rw [Role.accounted_lagged]
        exact listener_account hfirst (hsent ▸ Nat.le_add_right _ _) hlistens hle
    | idle hidle =>
      cases answer with
      | signal | lagged => cases hidle
      | _ => cases hquiet
    | _ => cases hquiet

theorem Role.perform_join (hopen : s.isOpen = true) :
    listener? (role.places (s.perform role.join).2) (role.places s).length = some s.sent ∧
      (s.perform role.join).2.sent = s.sent := by
  cases role <;> simp [Role.join, Role.places, perform, whileOpen, hopen, listener?_concat]

theorem Role.ends_of_isIdle (hidle : answer.isIdle = true) (hkeeps : operation.isDrop = false) :
    role.ends place (operation, answer) = false := by
  cases role with
  | receiver => exact decide_eq_false (by rintro rfl; cases hkeeps)
  | waiter =>
    refine Bool.or_eq_false_iff.mpr ⟨decide_eq_false ?_, decide_eq_false ?_⟩
    · rintro rfl
      cases hkeeps
    · rintro heq
      obtain ⟨-, rfl⟩ := Prod.mk.inj heq
      cases hidle

theorem Effect.join_or_stays (h : s.Effect operation answer next)
    (hlistens : listener? (role.places next) place = some n) :
    (operation = role.join ∧ s.isOpen = true ∧ place = (role.places s).length) ∨
      (listener? (role.places s) place).isSome ∧ role.ends place (operation, answer) = false := by
  cases h with
  | idle hidle hkeeps =>
    exact .inr ⟨Option.isSome_of_mem hlistens, Role.ends_of_isIdle hidle hkeeps⟩
  | trigger | clone | copy | close =>
    cases role <;> exact .inr ⟨Option.isSome_of_mem hlistens, rfl⟩
  | signal hfirst | lagged hfirst =>
    cases role with
    | waiter => exact .inr ⟨Option.isSome_of_mem hlistens, rfl⟩
    | receiver => exact .inr ⟨isSome_of_set_some hfirst hlistens, rfl⟩
  | subscribe hopen =>
    cases role with
    | receiver =>
      rcases eq_or_isSome_of_concat hlistens with hplace | hsome
      · exact .inl ⟨rfl, hopen, hplace⟩
      · exact .inr ⟨hsome, rfl⟩
    | waiter => exact .inr ⟨Option.isSome_of_mem hlistens, rfl⟩
  | signalled hopen =>
    cases role with
    | receiver => exact .inr ⟨Option.isSome_of_mem hlistens, rfl⟩
    | waiter =>
      rcases eq_or_isSome_of_concat hlistens with hplace | hsome
      · exact .inl ⟨rfl, hopen, hplace⟩
      · exact .inr ⟨hsome, rfl⟩
  | ready | dropWaiter =>
    cases role with
    | receiver => exact .inr ⟨Option.isSome_of_mem hlistens, rfl⟩
    | waiter =>
      obtain ⟨hsome, hne⟩ := isSome_and_ne_of_set_none hlistens
      exact .inr ⟨hsome, by simp [Role.ends, hne]⟩
  | dropReceiver =>
    cases role with
    | receiver =>
      obtain ⟨hsome, hne⟩ := isSome_and_ne_of_set_none hlistens
      exact .inr ⟨hsome, by simp [Role.ends, hne]⟩
    | waiter => exact .inr ⟨Option.isSome_of_mem hlistens, rfl⟩

/-! ## Runs -/

theorem coordinators_run (s : Shutdown) (operations : List Operation) :
    (s.run operations).coordinators = leaving s.coordinators operations := by
  induction operations generalizing s with
  | nil => rfl
  | cons operation rest ih =>
    have hrest := ih (s.perform operation).2
    rw [(s.effect operation).coordinators_eq] at hrest
    exact hrest

theorem capacity_run (s : Shutdown) (operations : List Operation) :
    (s.run operations).capacity = s.capacity := by
  induction operations generalizing s with
  | nil => rfl
  | cons operation rest ih => exact (ih _).trans (s.effect operation).capacity_eq

theorem asked_run {level : Shutdown → Nat} {wanted : Operation}
    (hstep : ∀ s operation answer next, Effect s operation answer next →
      level next = level s + if operation = wanted ∧ 0 < s.coordinators then 1 else 0)
    (s : Shutdown) (operations : List Operation) :
    level (s.run operations) = level s + asked wanted s.coordinators operations := by
  induction operations generalizing s with
  | nil => rfl
  | cons operation rest ih =>
    have hfirst := hstep _ _ _ _ (s.effect operation)
    have hrest := ih (s.perform operation).2
    rw [(s.effect operation).coordinators_eq, hfirst, Nat.add_assoc] at hrest
    exact hrest

theorem listeners_run (s : Shutdown) (operations : List Operation) :
    (s.run operations).listeners + (s.history operations).countP leaves =
      s.listeners + asked .subscribe s.coordinators operations +
        asked .signalled s.coordinators operations := by
  induction operations generalizing s with
  | nil => rfl
  | cons operation rest ih =>
    have hfirst := (s.effect operation).listeners_eq
    have hrest := ih (s.perform operation).2
    have hrun : s.run (operation :: rest) = (s.perform operation).2.run rest := rfl
    rw [(s.effect operation).coordinators_eq] at hrest
    rw [history_cons, List.countP_append, hrun, asked, asked]
    omega

theorem coordinators_start_run (operations : List Operation) :
    (start.run operations).coordinators = coordinatorsAfter operations :=
  coordinators_run start operations

theorem sent_start_run (operations : List Operation) :
    (start.run operations).sent = triggers operations :=
  (asked_run (fun _ _ _ _ h => h.sent_eq) start operations).trans (Nat.zero_add _)

theorem length_start_run (role : Role) (operations : List Operation) :
    (role.places (start.run operations)).length = role.joins operations := by
  have hnone : (role.places start).length = 0 := by cases role <;> rfl
  have hrun := @asked_run (fun s => (role.places s).length) _
    (fun _ _ _ _ h => h.length_places_eq) start operations
  rw [hnone, Nat.zero_add] at hrun
  exact hrun

theorem isOpen_start_run :
    (start.run operations).isOpen = true ↔ 0 < coordinatorsAfter operations := by
  rw [isOpen, coordinators_start_run]
  exact decide_eq_true_iff

theorem listener_run (hlistens : listener? (role.places s) place = some n) (hle : n ≤ s.sent)
    (hstays : ∀ entry ∈ s.history operations, role.ends place entry = false) :
    listener? (role.places (s.run operations)) place =
        some (n + role.accounted place (s.history operations)) ∧
      n + role.accounted place (s.history operations) ≤ (s.run operations).sent := by
  induction operations generalizing s n with
  | nil =>
    have hnone : role.accounted place [] = 0 := by cases role <;> rfl
    rw [history, hnone]
    exact ⟨hlistens, hle⟩
  | cons operation rest ih =>
    obtain ⟨hfirst, hrest⟩ := List.forall_mem_cons.mp hstays
    obtain ⟨hnext, hle⟩ := (s.effect operation).listener hlistens hle hfirst
    have h := ih hnext hle hrest
    rw [history_cons, Role.accounted_append, ← Nat.add_assoc]
    exact h

theorem Role.Listens.concat (h : role.Listens operations before since) (operation : Operation)
    (hstays : role.ends (role.joins before)
      (operation, ((start.run operations).perform operation).1) = false) :
    role.Listens (operations ++ [operation]) before
      (since ++ [(operation, ((start.run operations).perform operation).1)]) := by
  obtain ⟨⟨after, rfl, rfl⟩, hgranted, hkept⟩ := h
  refine ⟨⟨after ++ [operation], by simp, ?_⟩, hgranted, ?_⟩
  · rw [history_append, run_append]
    rfl
  · exact List.forall_mem_append.mpr ⟨hkept, List.forall_mem_singleton.mpr hstays⟩

theorem Role.Listens.listener (h : role.Listens operations before since) :
    ∃ n, listener? (role.places (start.run operations)) (role.joins before) = some n ∧
      role.accounted (role.joins before) since ≤ triggers operations - triggers before ∧
      (start.run operations).sent =
        n + (triggers operations - triggers before - role.accounted (role.joins before) since) := by
  obtain ⟨⟨after, rfl, rfl⟩, hgranted, hkept⟩ := h
  obtain ⟨hlistens, hsent⟩ := role.perform_join (isOpen_start_run.mpr hgranted)
  rw [length_start_run] at hlistens
  have hrun : start.run (before ++ role.join :: after) =
      ((start.run before).perform role.join).2.run after := run_append _ _ _
  obtain ⟨hlater, hle⟩ := listener_run hlistens (Nat.le_of_eq hsent.symm) hkept
  have hbefore := sent_start_run before
  have hafter := sent_start_run (before ++ role.join :: after)
  rw [← hrun] at hlater hle
  exact ⟨_, hlater, by omega, by omega⟩

theorem Role.exists_listens (h : (listener? (role.places (start.run operations)) place).isSome) :
    ∃ before since, role.Listens operations before since ∧ role.joins before = place := by
  induction operations using List.reverseRecOn with
  | nil => cases role <;> cases h
  | append_singleton operations operation ih =>
    obtain ⟨n, hlistens⟩ := Option.isSome_iff_exists.mp h
    rw [run_append] at hlistens
    rcases ((start.run operations).effect operation).join_or_stays hlistens with
      ⟨rfl, hopen, hplace⟩ | ⟨hsome, hstays⟩
    · rw [length_start_run] at hplace
      exact ⟨operations, [], ⟨⟨[], rfl, rfl⟩, isOpen_start_run.mp hopen, List.forall_mem_nil _⟩,
        hplace.symm⟩
    · obtain ⟨before, since, hsince, rfl⟩ := ih hsome
      exact ⟨before, _, hsince.concat operation hstays, rfl⟩

/-! ## What a listener finds -/

theorem perform_receive (hlistens : listener? s.receivers place = some n) :
    s.perform (.receive place) = s.receiveFrom place n := by simp only [perform, hlistens]

theorem perform_poll (hlistens : listener? s.waiters place = some n) :
    s.perform (.poll place) = s.pollFrom place n := by simp only [perform, hlistens]

namespace Answer

def ofPending (isOpen : Bool) : Nat → Answer
  | 0 => if isOpen then .empty else .channelClosed
  | 1 => .signal
  | n + 2 => .lagged (n + 1)

variable {isOpen : Bool} {count : Nat}

theorem ofPending_eq_lagged : ofPending isOpen count = .lagged n ↔ 1 ≤ n ∧ count = n + 1 := by
  match count with
  | 0 => cases isOpen <;> simp [ofPending]
  | 1 => simp [ofPending]; omega
  | k + 2 => simp [ofPending]; omega

theorem ofPending_eq_signal : ofPending isOpen count = .signal ↔ count = 1 := by
  match count with
  | 0 => cases isOpen <;> simp [ofPending]
  | 1 | k + 2 => simp [ofPending]

theorem ofPending_eq_empty : ofPending isOpen count = .empty ↔ count = 0 ∧ isOpen = true := by
  match count with
  | 0 => cases isOpen <;> simp [ofPending]
  | 1 | k + 2 => simp [ofPending]

theorem ofPending_eq_channelClosed :
    ofPending isOpen count = .channelClosed ↔ count = 0 ∧ isOpen = false := by
  match count with
  | 0 => cases isOpen <;> simp [ofPending]
  | 1 | k + 2 => simp [ofPending]

theorem sub_accounted_ofPending :
    count - Role.receiver.accounted place [(.receive place, ofPending isOpen count)] =
      if 2 ≤ count then 1 else 0 := by
  match count with
  | 0 => exact Nat.zero_sub _
  | 1 => rw [ofPending, Role.accounted_signal, if_pos rfl]; rfl
  | k + 2 =>
    rw [ofPending, Role.accounted_lagged, if_pos rfl, if_pos (Nat.le_add_left 2 k)]
    omega

end Answer

theorem receiveFrom_of_sent {first : Nat} (hcapacity : s.capacity = 1)
    (hsent : s.sent = first + n) : (s.receiveFrom place first).1 = .ofPending s.isOpen n := by
  have hn : s.sent - first = n := by omega
  rw [receiveFrom_of_capacity_eq_one hcapacity, hn]
  match n with
  | 0 | 1 | _ + 2 => rfl

theorem pollFrom_of_sent {first : Nat} (hsent : s.sent = first + n) :
    (s.pollFrom place first).1 = if 0 < n ∨ s.coordinators = 0 then .ready else .pending := by
  have hthrough : (first < s.sent || !s.isOpen) = decide (0 < n ∨ s.coordinators = 0) := by
    rw [hsent, isOpen]
    grind
  simp only [pollFrom, hthrough, decide_eq_true_eq]
  split <;> rfl

theorem pending_receive (sent : Nat) :
    pending place sent (since ++ [(.receive place, answer)]) =
      pending place sent since - Role.receiver.accounted place [(.receive place, answer)] := by
  have hboth := Role.receiver.accounted_append place since [(.receive place, answer)]
  rw [Role.accounted] at hboth
  rw [pending, pending, hboth, Role.accounted]
  omega

theorem Role.Listens.accounts (h : receiver.Listens operations before since) :
    (start.run operations).Accounts (receiver.joins before)
      (triggers operations - triggers before) since := by
  obtain ⟨first, hlistens, hle, hsent⟩ := h.listener
  have hanswer : ((start.run operations).perform (.receive (receiver.joins before))).1 =
      .ofPending (start.run operations).isOpen
        (pending (receiver.joins before) (triggers operations - triggers before) since) := by
    rw [perform_receive hlistens]
    exact receiveFrom_of_sent (capacity_run start operations) hsent
  constructor
  · exact Nat.add_sub_of_le hle
  all_goals rw [hanswer]
  · exact fun _ => Answer.ofPending_eq_lagged
  · exact Answer.ofPending_eq_signal
  · exact Answer.ofPending_eq_empty.trans (and_congr_right' decide_eq_true_iff)
  · exact Answer.ofPending_eq_channelClosed.trans
      (and_congr_right' (decide_eq_false_iff_not.trans (Nat.not_lt.trans Nat.le_zero)))
  · rw [pending_receive]
    exact Answer.sub_accounted_ofPending

theorem Role.Listens.poll (h : waiter.Listens operations before since) :
    ((start.run operations).perform (.poll (waiter.joins before))).1 =
      if 0 < triggers operations - triggers before ∨ (start.run operations).coordinators = 0
        then .ready else .pending := by
  obtain ⟨first, hlistens, _, hsent⟩ := h.listener
  rw [perform_poll hlistens]
  exact pollFrom_of_sent hsent

theorem whileOpen_answer (result : Answer × Shutdown) :
    if 0 < s.coordinators then (s.whileOpen result).1 = result.1
    else s.whileOpen result = (.absent, s) := by
  unfold whileOpen isOpen
  split
  next hopen => rw [if_pos (decide_eq_true hopen)]
  next hclosed => exact if_neg (by simpa using hclosed)

theorem perform_granted (hgranted : operation.granted? operations = some answer) :
    if 0 < coordinatorsAfter operations then ((start.run operations).perform operation).1 = answer
    else (start.run operations).perform operation = (.absent, start.run operations) := by
  rw [← coordinators_start_run]
  cases operation with
  | subscribe | signalled =>
    obtain rfl := Option.some.inj hgranted
    rw [← length_start_run]
    exact whileOpen_answer _
  | trigger | clone | copy | close =>
    obtain rfl := Option.some.inj hgranted
    exact whileOpen_answer _
  | receive | poll | dropReceiver | dropWaiter => cases hgranted

theorem set_none_of_listener? (h : listener? places place = none) :
    places.set place none = places := by
  refine List.ext_getElem? fun other => ?_
  rw [List.getElem?_set]
  split
  next heq =>
    subst heq
    unfold listener? at h
    cases hplace : places[place]? with
    | none => rw [if_neg (Nat.not_lt.mpr (List.getElem?_eq_none_iff.mp hplace))]
    | some listener =>
      have hnone : listener = none := by rw [hplace] at h; exact h
      rw [if_pos (List.getElem?_eq_some_iff.mp hplace).1, hnone]
  next => rfl

theorem perform_nobody (hnone : listener? (role.places s) place = none) :
    s.perform (role.look place) = (.absent, s) ∧
      s.perform (role.drop place) = (.dropped false, s) := by
  have hset := set_none_of_listener? hnone
  cases role
  all_goals
    simp only [Role.places] at hnone hset
    simp only [Role.look, Role.drop, perform, hnone, hset]
    exact ⟨trivial, rfl⟩

theorem perform_drop (hlistens : listener? (role.places s) place = some n) :
    (s.perform (role.drop place)).1 = .dropped true := by
  cases role <;> exact congrArg Answer.dropped (Option.isSome_of_mem hlistens)

/-- Whatever the operations, an operation on a coordinator has its effect as long as there is one,
and none after that. Every trigger since a receiver subscribed is one that it was given, was told
that it missed, or has pending, and what is pending decides what it receives next: the signal if it
is one, how many it missed if they are more, nothing if there is none. A waiter is through once
there was a trigger since it came or no coordinator is left. Every listener counts from when it came
until it is gone. -/
theorem run_accounts_for_signals (operations : List Operation) :
    let s := start.run operations
    s.coordinators = coordinatorsAfter operations ∧
    (∀ operation answer, operation.granted? operations = some answer →
      if 0 < coordinatorsAfter operations then (s.perform operation).1 = answer
      else s.perform operation = (.absent, s)) ∧
    (∀ before since, Role.receiver.Listens operations before since →
      s.Accounts (Role.receiver.joins before) (triggers operations - triggers before) since) ∧
    (∀ before since, Role.waiter.Listens operations before since →
      (s.perform (.poll (Role.waiter.joins before))).1 =
        if 0 < triggers operations - triggers before ∨ coordinatorsAfter operations = 0 then .ready
        else .pending) ∧
    (∀ (role : Role) before since, role.Listens operations before since →
      (s.perform (role.drop (role.joins before))).1 = .dropped true) ∧
    (∀ (role : Role) place,
      (∀ before since, role.Listens operations before since → role.joins before ≠ place) →
        s.perform (role.look place) = (.absent, s) ∧
          s.perform (role.drop place) = (.dropped false, s)) ∧
    s.listeners + (start.history operations).countP leaves =
      Role.receiver.joins operations + Role.waiter.joins operations := by
  intro s
  have hcoordinators : s.coordinators = coordinatorsAfter operations :=
    coordinators_start_run operations
  refine ⟨hcoordinators, fun _ _ h => perform_granted h, fun _ _ h => h.accounts,
    fun _ _ h => hcoordinators ▸ h.poll, fun role _ _ h => ?_, fun role place hnobody => ?_, ?_⟩
  · obtain ⟨n, hlistens, _⟩ := h.listener
    exact perform_drop hlistens
  · refine perform_nobody (Option.not_isSome_iff_eq_none.mp fun hsome => ?_)
    obtain ⟨before, since, hlistens, hplace⟩ := Role.exists_listens hsome
    exact hnobody before since hlistens hplace
  · have hrun := listeners_run start operations
    rw [show start.listeners = 0 from rfl, Nat.zero_add] at hrun
    exact hrun

/-- A receiver and a waiter that slept through three triggers and the end of the coordinator: the
waiter is through, and the receiver is told of the two it missed before it gets the last. -/
theorem run_accounts_for_signals_lagging :
    let slept : List Operation := [.subscribe, .signalled, .trigger, .trigger, .trigger, .close]
    ((start.run slept).perform (.poll 0)).1 = .ready ∧
      ((start.run slept).perform (.receive 0)).1 = .lagged 2 ∧
      ((start.run (slept ++ [.receive 0])).perform (.receive 0)).1 = .signal ∧
      ((start.run (slept ++ [.receive 0, .receive 0])).perform (.receive 0)).1 = .channelClosed ∧
      (start.run slept).listeners = 2 := by
  intro slept
  have hreceiver (later : List Operation)
      (hstays : ∀ entry ∈ (start.perform .subscribe).2.history (slept.tail ++ later),
        Role.receiver.ends 0 entry = false) :=
    (run_accounts_for_signals (slept ++ later)).2.2.1 [] _
      ⟨⟨slept.tail ++ later, rfl, rfl⟩, by decide, hstays⟩
  obtain ⟨-, -, -, hwaiter, -, -, hlisteners⟩ := run_accounts_for_signals slept
  refine ⟨?_, ?_, ?_, ?_, ?_⟩
  · exact hwaiter [.subscribe] _ ⟨⟨slept.drop 2, rfl, rfl⟩, by decide, by decide⟩
  · exact ((hreceiver [] (by decide)).lagged 2).mpr (by decide)
  · exact (hreceiver [.receive 0] (by decide)).signal.mpr (by decide)
  · exact (hreceiver [.receive 0, .receive 0] (by decide)).closed.mpr (by decide)
  · exact hlisteners

end Shutdown
end ApiGateway
