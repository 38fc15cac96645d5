import Mathlib.Data.List.TakeWhile
import Mathlib.Data.List.Forall2
import Emme.Settings.Valid
import Emme.Backend.Pool

/-!
# The numbers of a route

The nested sections of a route read their numbers with `get_yaml_int`, which looks at the text but
not at the value, and their parsers ignore its result. So a number is what its text denotes only
if the text denotes an integer that fits an `int`, and nothing checks that it can be used
(`route_numbers_exact_iff`).
-/

namespace Emme.Settings

open CString FileTree Emme.Http Emme.Router Emme.Config

/-! ## What a text denotes -/

/-- The text is white space, an optional sign and digits, and this is the integer it denotes. -/
def Denotes (text : Bytes) (value : Int) : Prop :=
  ∃ spaces sign digits : Bytes, text = spaces ++ (sign ++ digits) ∧
    (∀ b ∈ spaces, isSpace b = true) ∧ (∀ b ∈ digits, isDigit b = true) ∧ digits ≠ [] ∧
    ((sign = [45] ∧ value = -decimal digits) ∨
      ((sign = [43] ∨ sign = []) ∧ value = decimal digits))

/-- A digit is no white space. -/
theorem is_digit_not_space {b : UInt8} (h : isDigit b = true) : isSpace b = false := by
  simp only [isDigit, isSpace, Bool.and_eq_true, decide_eq_true_eq, Bool.or_eq_false_iff,
    decide_eq_false_iff_not, Bool.and_eq_false_iff] at h ⊢
  grind

/-- A digit is no sign. -/
theorem is_digit_not_sign {b : UInt8} (h : isDigit b = true) : b ≠ 45 ∧ b ≠ 43 := by
  constructor
  · rintro rfl
    revert h
    decide
  · rintro rfl
    revert h
    decide

/-- The sign at the start of a text, and what follows it. -/
def splitSign (text : Bytes) : Int × Bytes :=
  match text with
  | 45 :: rest => (-1, rest)
  | 43 :: rest => (1, rest)
  | rest => (1, rest)

/-- The scan, by the sign and what follows it. -/
theorem scan_decimal_eq (text : Bytes) :
    scanDecimal text =
      if (splitSign (text.dropWhile isSpace)).2.takeWhile isDigit = [] then none
      else some ((splitSign (text.dropWhile isSpace)).1 *
          decimal ((splitSign (text.dropWhile isSpace)).2.takeWhile isDigit),
        (splitSign (text.dropWhile isSpace)).2.dropWhile isDigit) := rfl

/-- Digits have no sign before them. -/
theorem split_sign_digits {digits : Bytes} (h : ∀ b ∈ digits, isDigit b = true) :
    splitSign digits = (1, digits) := by
  cases digits with
  | nil => rfl
  | cons b digits =>
      have hb := is_digit_not_sign (h b List.mem_cons_self)
      rw [splitSign]
      · intro rest heq
        exact hb.1 (List.cons.inj heq).1
      · intro rest heq
        exact hb.2 (List.cons.inj heq).1

/-- The sign is one of three texts. -/
theorem split_sign_cases (text : Bytes) :
    (∃ rest, text = 45 :: rest ∧ splitSign text = (-1, rest)) ∨
      (∃ rest, text = 43 :: rest ∧ splitSign text = (1, rest)) ∨ splitSign text = (1, text) := by
  unfold splitSign
  split
  · exact .inl ⟨_, rfl, rfl⟩
  · exact .inr (.inl ⟨_, rfl, rfl⟩)
  · exact .inr (.inr rfl)

/-- The scanner reads a whole text if it denotes an integer, and then that integer. -/
theorem scan_decimal_denotes (text : Bytes) (value : Int) :
    scanDecimal text = some (value, []) ↔ Denotes text value := by
  rw [scan_decimal_eq]
  constructor
  · intro h
    split at h
    · cases h
    · rename_i hdigits
      obtain ⟨hvalue, hrest⟩ := Prod.mk.inj (Option.some.inj h)
      have hall := List.dropWhile_eq_nil_iff.mp hrest
      have htake : (splitSign (text.dropWhile isSpace)).2.takeWhile isDigit =
          (splitSign (text.dropWhile isSpace)).2 :=
        List.takeWhile_eq_self_iff.mpr hall
      rw [htake] at hdigits hvalue
      have hspaces : ∀ b ∈ text.takeWhile isSpace, isSpace b = true :=
        fun b hb => List.mem_takeWhile_imp hb
      have htext := (List.takeWhile_append_dropWhile (p := isSpace) (l := text)).symm
      rcases split_sign_cases (text.dropWhile isSpace) with
        ⟨rest, heq, hsplit⟩ | ⟨rest, heq, hsplit⟩ | hsplit
      · rw [hsplit] at hall hdigits hvalue
        exact ⟨_, [45], rest, htext.trans (by rw [heq]; rfl), hspaces, hall, hdigits,
          .inl ⟨rfl, hvalue.symm.trans (neg_one_mul _)⟩⟩
      · rw [hsplit] at hall hdigits hvalue
        exact ⟨_, [43], rest, htext.trans (by rw [heq]; rfl), hspaces, hall, hdigits,
          .inr ⟨.inl rfl, hvalue.symm.trans (one_mul _)⟩⟩
      · rw [hsplit] at hall hdigits hvalue
        exact ⟨_, [], _, htext, hspaces, hall, hdigits,
          .inr ⟨.inr rfl, hvalue.symm.trans (one_mul _)⟩⟩
  · rintro ⟨spaces, sign, digits, rfl, hspaces, hdigits, hne, hsign⟩
    -- neither a sign nor a digit is white space, so exactly the white space is dropped
    have hdrop : (spaces ++ (sign ++ digits)).dropWhile isSpace = sign ++ digits := by
      rw [List.dropWhile_append_of_pos hspaces]
      rcases hsign with ⟨rfl, -⟩ | ⟨rfl | rfl, -⟩
      · rfl
      · rfl
      · cases digits with
        | nil => exact absurd rfl hne
        | cons b digits =>
            exact List.dropWhile_cons_of_neg
              (Bool.eq_false_iff.mp (is_digit_not_space (hdigits b List.mem_cons_self)))
    have hsplit : splitSign (sign ++ digits) = (if sign = [45] then -1 else 1, digits) := by
      rcases hsign with ⟨rfl, -⟩ | ⟨rfl | rfl, -⟩
      · rfl
      · rfl
      · exact split_sign_digits hdigits
    have htake : digits.takeWhile isDigit = digits := List.takeWhile_eq_self_iff.mpr hdigits
    have hrest : digits.dropWhile isDigit = [] := List.dropWhile_eq_nil_iff.mpr hdigits
    rw [hdrop, hsplit]
    dsimp only
    rw [htake, hrest, if_neg hne]
    rcases hsign with ⟨rfl, hvalue⟩ | ⟨rfl | rfl, hvalue⟩
    · rw [if_pos rfl, hvalue, neg_one_mul]
    · rw [if_neg (by decide), hvalue, one_mul]
    · rw [if_neg (by decide), hvalue, one_mul]

/-- A text that denotes an `int` is read as that `int`. -/
theorem get_yaml_int_denotes {text : Bytes} {value : Int} (h : Denotes text value)
    (hlow : -2 ^ 31 ≤ value) (hhigh : value < 2 ^ 31) :
    getYamlInt (.scalar text) = some (Int32.ofInt value) := by
  have hclamp : clampLong value = value := by
    unfold clampLong
    omega
  rw [getYamlInt, strtol, (scan_decimal_denotes text value).mpr h]
  dsimp only
  rw [hclamp]

/-! ## The numbers of a route -/

/-- The numbers under `health_check`, `connection_pool`, `circuit_breaker` and `cors`. -/
inductive Number where
  | intervalSeconds
  | timeoutSeconds
  | unhealthyThreshold
  | healthyThreshold
  | poolSize
  | idleTimeoutSeconds
  | failureThreshold
  | recoveryTimeoutSeconds
  | maxAgeSeconds
  deriving DecidableEq, Repr

/-- The section and the key a number is read from. -/
def Number.place : Number → String × String
  | .intervalSeconds => ("health_check", "interval_seconds")
  | .timeoutSeconds => ("health_check", "timeout_seconds")
  | .unhealthyThreshold => ("health_check", "unhealthy_threshold")
  | .healthyThreshold => ("health_check", "healthy_threshold")
  | .poolSize => ("connection_pool", "size")
  | .idleTimeoutSeconds => ("connection_pool", "idle_timeout_seconds")
  | .failureThreshold => ("circuit_breaker", "failure_threshold")
  | .recoveryTimeoutSeconds => ("circuit_breaker", "recovery_timeout_seconds")
  | .maxAgeSeconds => ("cors", "max_age_seconds")

/-- A number of a loaded route. -/
def Number.get (route : Route) : Number → Int32
  | .intervalSeconds => route.healthCheck.intervalSeconds
  | .timeoutSeconds => route.healthCheck.timeoutSeconds
  | .unhealthyThreshold => route.healthCheck.unhealthyThreshold
  | .healthyThreshold => route.healthCheck.healthyThreshold
  | .poolSize => route.connectionPool.size
  | .idleTimeoutSeconds => route.connectionPool.idleTimeoutSeconds
  | .failureThreshold => route.circuitBreaker.failureThreshold
  | .recoveryTimeoutSeconds => route.circuitBreaker.recoveryTimeoutSeconds
  | .maxAgeSeconds => route.cors.maxAgeSeconds

/-- The value a number has in a section without its key. -/
def Number.default : Number → Int32
  | .intervalSeconds => 10
  | .timeoutSeconds => 5
  | .unhealthyThreshold => 3
  | .healthyThreshold => 2
  | .poolSize => 10
  | .idleTimeoutSeconds => 60
  | .failureThreshold => 5
  | .recoveryTimeoutSeconds => 30
  | .maxAgeSeconds => 86400

/-- The values that the code which consumes the number can work with. -/
def Number.Usable (value : Int) : Number → Prop
  | .poolSize => 1 ≤ value ∧ value ≤ Backend.maxPoolSize
  | .intervalSeconds | .unhealthyThreshold | .healthyThreshold | .failureThreshold => 1 ≤ value
  | .recoveryTimeoutSeconds => 0 ≤ value
  | .timeoutSeconds | .idleTimeoutSeconds | .maxAgeSeconds => True

instance (value : Int) : (number : Number) → Decidable (number.Usable value)
  | .poolSize => inferInstanceAs (Decidable (1 ≤ value ∧ value ≤ Backend.maxPoolSize))
  | .intervalSeconds | .unhealthyThreshold | .healthyThreshold | .failureThreshold =>
      inferInstanceAs (Decidable (1 ≤ value))
  | .recoveryTimeoutSeconds => inferInstanceAs (Decidable (0 ≤ value))
  | .timeoutSeconds | .idleTimeoutSeconds | .maxAgeSeconds => inferInstanceAs (Decidable True)

/-- The node that the entry of a route gives for a number. -/
def Number.given (item : Yaml) (number : Number) : Option Yaml :=
  (findYamlNode item (ascii number.place.1)).bind (findYamlNode · (ascii number.place.2))

/-- The node's text denotes an integer that can be used, and the route has exactly that. -/
def Number.Exact (number : Number) (node : Yaml) (route : Route) : Prop :=
  ∃ text value, node = .scalar text ∧ Denotes text value ∧ number.Usable value ∧
    (number.get route).toInt = value

/-- The node's text denotes an `int` that can be used. -/
def Number.Proper (number : Number) (node : Yaml) : Prop :=
  ∃ text value, node = .scalar text ∧ Denotes text value ∧ number.Usable value ∧
    -2 ^ 31 ≤ value ∧ value < 2 ^ 31

variable {view : View} {item node : Yaml} {number : Number}

/-- A number that is given is what `get_yaml_int` reads, or else the default. -/
theorem number_of_entry {count : Nat} {route : Route}
    (h : parseRouteEntry view count item = .ok route) (hnode : number.given item = some node) :
    number.get route = (getYamlInt node).getD number.default := by
  obtain ⟨group, hgroup, hkey⟩ := Option.bind_eq_some_iff.mp hnode
  -- only a mapping has keys
  obtain ⟨pairs, rfl⟩ : ∃ pairs, group = .mapping pairs := by
    cases group with
    | scalar text => cases hkey
    | sequence items => cases hkey
    | mapping pairs => exact ⟨pairs, rfl⟩
  rw [parseRouteEntry] at h
  split at h
  · cases h
  · simp only [bind_eq_ok] at h
    obtain ⟨path, -, technology, -, documentRoot, -, backend, -, h⟩ := h
    cases h
    cases number with
    | intervalSeconds | timeoutSeconds | unhealthyThreshold | healthyThreshold =>
        simp only [Number.place] at hgroup hkey
        simp only [Number.get, hgroup, parseHealthCheckConfig, getField, hkey, Option.bind_some,
          Number.default]
    | poolSize | idleTimeoutSeconds =>
        simp only [Number.place] at hgroup hkey
        simp only [Number.get, hgroup, parseConnectionPoolConfig, getField, hkey,
          Option.bind_some, Number.default]
    | failureThreshold | recoveryTimeoutSeconds =>
        simp only [Number.place] at hgroup hkey
        simp only [Number.get, hgroup, parseCircuitBreakerConfig, getField, hkey,
          Option.bind_some, Number.default]
    | maxAgeSeconds =>
        simp only [Number.place] at hgroup hkey
        simp only [Number.get, hgroup, parseCorsConfig, getField, hkey, Option.bind_some,
          Number.default]

/-- A given number is exact if its text denotes an `int` that can be used. -/
theorem number_exact_iff {count : Nat} {route : Route}
    (h : parseRouteEntry view count item = .ok route) (hnode : number.given item = some node) :
    number.Exact node route ↔ number.Proper node := by
  constructor
  · rintro ⟨text, value, htext, hdenotes, husable, hget⟩
    refine ⟨text, value, htext, hdenotes, husable, ?_, ?_⟩
    · exact hget ▸ Int32.le_toInt _
    · exact hget ▸ Int32.toInt_lt _
  · rintro ⟨text, value, rfl, hdenotes, husable, hlow, hhigh⟩
    refine ⟨text, value, rfl, hdenotes, husable, ?_⟩
    rw [number_of_entry h hnode, get_yaml_int_denotes hdenotes hlow hhigh, Option.getD_some]
    exact Int32.toInt_ofInt_of_le hlow hhigh

/-! ## The routes of a document -/

/-- The entries of the `routes` sequence. -/
def routeItems (root : Yaml) : List Yaml :=
  match findYamlNode root (ascii "routes") with
  | some (.sequence items) => items
  | _ => []

/-- The loop over the routes adds one route for each entry. -/
theorem fold_routes_entries {items : List Yaml} {routes routes' : List Route}
    (h : items.foldlM (addRoute view) routes = .ok routes') :
    ∃ added, routes' = routes ++ added ∧
      List.Forall₂ (fun item route => ∃ count, parseRouteEntry view count item = .ok route)
        items added := by
  induction items generalizing routes with
  | nil =>
      cases h
      exact ⟨[], (List.append_nil _).symm, .nil⟩
  | cons item items ih =>
      obtain ⟨_, route, _, hroute, h⟩ := fold_routes_cons h
      obtain ⟨added, hadded, hentries⟩ := ih h
      exact ⟨route :: added, by rw [hadded, List.append_assoc, List.singleton_append],
        .cons ⟨_, hroute⟩ hentries⟩

/-- The routes of an accepted document are its entries, in order. -/
theorem load_config_entries {root : Yaml} {config : ServerConfig}
    (h : loadConfig view root = .ok config) :
    List.Forall₂ (fun item route => ∃ count, parseRouteEntry view count item = .ok route)
      (routeItems root) config.routes := by
  obtain ⟨stages⟩ := load_config_stages h
  rcases stages.routes_cases with ⟨hnode, hroutes⟩ | ⟨items, hnode, hfold⟩
  · rw [routeItems, hnode, hroutes]
    exact .nil
  · obtain ⟨added, hadded, hentries⟩ := fold_routes_entries hfold
    rw [routeItems, hnode, hadded]
    exact hentries

/-- The numbers of an accepted document's routes are exact and usable exactly if each of their
texts denotes an `int` that can be used; any other text is accepted as well. -/
theorem route_numbers_exact_iff (view : View) (root : Yaml) (config : ServerConfig)
    (h : loadConfig view root = .ok config) :
    List.Forall₂ (fun item route => ∀ (number : Number) (node : Yaml),
        number.given item = some node → number.Exact node route)
      (routeItems root) config.routes ↔
    ∀ item ∈ routeItems root, ∀ (number : Number) (node : Yaml),
      number.given item = some node → number.Proper node := by
  have hentries := load_config_entries h
  generalize routeItems root = items at hentries
  generalize config.routes = routes at hentries
  induction hentries with
  | nil => simp
  | cons hentry hrest ih =>
      obtain ⟨count, hentry⟩ := hentry
      rw [List.forall₂_cons, List.forall_mem_cons]
      refine and_congr ?_ ih
      exact forall_congr' fun number => forall_congr' fun node => forall_congr' fun hnode =>
        number_exact_iff hentry hnode

/-- A document with one route that gives the size of its pool. -/
def pooledSite (size : String) : Yaml :=
  .record [("routes", .sequence [.record
    [("path", .text "/api"), ("technology", .text "reverse_proxy"),
      ("backend", .text "127.0.0.1:8080"),
      ("connection_pool", .record [("size", .text size)])]])]

/-- The document gives the size of the pool and no other number. -/
theorem pooled_site_given {size : String} (hitem : item ∈ routeItems (pooledSite size))
    (hnode : number.given item = some node) : number = .poolSize ∧ node = .text size := by
  obtain rfl := List.mem_singleton.mp hitem
  cases number with
  | poolSize => exact ⟨rfl, (Option.some.inj hnode).symm⟩
  | _ => cases hnode

/-- A pool of eight connections is loaded as one. -/
theorem pooled_site_exact :
    ∃ config, loadConfig exampleView (pooledSite "8") = .ok config ∧
      List.Forall₂ (fun item route => ∀ (number : Number) (node : Yaml),
          number.given item = some node → number.Exact node route)
        (routeItems (pooledSite "8")) config.routes := by
  obtain ⟨config, hload⟩ : ∃ config, loadConfig exampleView (pooledSite "8") = .ok config :=
    ⟨_, rfl⟩
  refine ⟨config, hload, (route_numbers_exact_iff _ _ _ hload).mpr ?_⟩
  intro item hitem number node hnode
  obtain ⟨rfl, rfl⟩ := pooled_site_given hitem hnode
  refine ⟨_, 8, rfl, ?_, by decide, by decide, by decide⟩
  exact (scan_decimal_denotes _ _).mp rfl

/-- A size that no pool can have is accepted and stored; so is a text without a number, with the
default in its place. -/
theorem pooled_site_unusable :
    (∃ config, loadConfig exampleView (pooledSite "0") = .ok config ∧
      config.routes.map (Number.get · .poolSize) = [0] ∧
      ¬ List.Forall₂ (fun item route => ∀ (number : Number) (node : Yaml),
          number.given item = some node → number.Exact node route)
        (routeItems (pooledSite "0")) config.routes) ∧
    ∃ config, loadConfig exampleView (pooledSite "many") = .ok config ∧
      config.routes.map (Number.get · .poolSize) = [10] ∧
      ¬ List.Forall₂ (fun item route => ∀ (number : Number) (node : Yaml),
          number.given item = some node → number.Exact node route)
        (routeItems (pooledSite "many")) config.routes := by
  refine ⟨⟨_, rfl, rfl, fun hexact => ?_⟩, ⟨_, rfl, rfl, fun hexact => ?_⟩⟩
  · cases hexact with
    | cons hroute _ =>
        obtain ⟨text, value, htext, hdenotes, husable, -⟩ := hroute .poolSize (.text "0") rfl
        cases htext
        have hscan := (scan_decimal_denotes _ _).mpr hdenotes
        cases hscan
        exact absurd husable (by decide)
  · cases hexact with
    | cons hroute _ =>
        obtain ⟨text, value, htext, hdenotes, -, -⟩ := hroute .poolSize (.text "many") rfl
        cases htext
        have hscan := (scan_decimal_denotes _ _).mpr hdenotes
        cases hscan

end Emme.Settings
