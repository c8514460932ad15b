import MetricLayer.Catalog.Registry

/-!
# The bundled catalogs

Two product analytics tables: one row per web session, and one row per user and day.  The bundled
registry holds both.
-/

namespace MetricLayer

/-- The catalog of the `sessions` table. -/
def sessionsCatalog : Catalog where
  table := "sessions"
  description := .text
    "One row per web session with acquisition, lifecycle and revenue attributes."
  fields :=
    [{ name := "session_id", physicalType := "VARCHAR", ingestType := "string",
       category := "identifier", description := .text "Unique session identifier" },
     { name := "user_id", physicalType := "VARCHAR", ingestType := "string",
       category := "identifier", description := .text "Visitor identifier" },
     { name := "session_date", physicalType := "VARCHAR", ingestType := "string",
       category := "temporal",
       description := .text "Session start date as ingested from CSV (mixed date formats)" },
     { name := "traffic_source", physicalType := "VARCHAR", ingestType := "string",
       category := "categorical",
       members := some (["organic", "paid_search", "social", "email", "direct", "referral"].map .text),
       description := .text "Acquisition channel" },
     { name := "device_type", physicalType := "VARCHAR", ingestType := "string",
       category := "categorical",
       members := some (["desktop", "mobile", "tablet"].map .text),
       description := .text "Device class" },
     { name := "country", physicalType := "VARCHAR", ingestType := "string",
       category := "categorical", description := .text "Visitor country (ISO-2)" },
     { name := "max_lifecycle_stage", physicalType := "VARCHAR", ingestType := "string",
       category := "categorical",
       members := some (["awareness", "interest", "consideration", "trial", "activation"].map .text),
       description := .text "Furthest lifecycle stage reached in the session" },
     { name := "is_paying_customer", physicalType := "BOOLEAN", ingestType := "boolean",
       category := "categorical", members := some [.bool true, .bool false],
       description := .text "Whether the visitor is a paying customer" },
     { name := "session_revenue", physicalType := "DECIMAL(12,2)", ingestType := "number",
       category := "numerical", description := .text "Revenue attributed to the session" },
     { name := "interest_events", physicalType := "BIGINT", ingestType := "number",
       category := "numerical", sanitize := true,
       description := .text "Number of interest events fired" },
     { name := "trial_events", physicalType := "BIGINT", ingestType := "number",
       category := "numerical", sanitize := true,
       description := .text "Number of trial events fired" },
     { name := "session_duration_seconds", physicalType := "INTEGER", ingestType := "number",
       category := "continuous", description := .text "Session length in seconds" }]
  dimensions :=
    [{ source := "session_date", aliasName := "Session Date", sort := some (.text "asc") },
     { source := "traffic_source", aliasName := "Traffic Source", sort := some (.text "natural") },
     { source := "device_type", aliasName := "Device Type", sort := some (.text "natural") },
     { source := "country", aliasName := "Country", sort := some (.text "natural") },
     { source := "max_lifecycle_stage", aliasName := "Lifecycle Stage",
       sort := some (.text "custom:awareness,interest,consideration,trial,activation") },
     { source := "is_paying_customer", aliasName := "is_paying_customer", sort := some (.text "natural") },
     { source := "session_length_bucket", aliasName := "Session Length",
       transformation := some (.text
         ("CASE WHEN session_duration_seconds < 60 THEN 'short' " ++
          "WHEN session_duration_seconds < 600 THEN 'medium' ELSE 'long' END")),
       sort := some (.text "custom:short,medium,long") }]
  measures :=
    [{ source := "session_revenue", description := .text "Session revenue",
       aggregations :=
         [{ aliasName := "total_revenue", function := "sum", source := "session_revenue",
            format := .text "currency", decimals := 2, currency := .text "USD" },
          { aliasName := "avg_session_revenue", function := "avg", source := "session_revenue",
            format := .text "currency", decimals := 2, currency := .text "USD" },
          { aliasName := "max_session_revenue", function := "max", source := "session_revenue",
            format := .text "currency", decimals := 2, currency := .text "USD" }],
       formulas :=
         [{ aliasName := "revenue_per_user",
            sql := "SUM(session_revenue) / NULLIF(COUNT(DISTINCT user_id), 0)",
            source := "session_revenue", format := .text "currency", decimals := 2,
            currency := .text "USD", description := .text "Revenue divided by distinct visitors" }] },
     { source := "_count", description := .text "Row count",
       aggregations :=
         [{ aliasName := "session_count", function := "count", source := "_count" }] },
     { source := "user_id", description := .text "Distinct visitors",
       aggregations :=
         [{ aliasName := "unique_visitors", function := "count_distinct", source := "user_id" }] },
     { source := "interest_events", description := .text "Interest events",
       aggregations :=
         [{ aliasName := "interest_events_total", function := "sum", source := "interest_events" }] },
     { source := "trial_events", description := .text "Trial events",
       aggregations :=
         [{ aliasName := "trial_events_total", function := "sum", source := "trial_events" }],
       formulas :=
         [{ aliasName := "trial_signup_rate",
            sql := "SUM(CASE WHEN trial_events > 0 THEN 1 ELSE 0 END) * 100.0 / NULLIF(COUNT(*), 0)",
            source := "trial_events", format := .text "percentage", decimals := 1,
            description := .text "Share of sessions with at least one trial event" }] },
     { source := "session_duration_seconds", description := .text "Session duration",
       aggregations :=
         [{ aliasName := "avg_session_duration", function := "avg",
            source := "session_duration_seconds", decimals := 1 }] }]

/-- The catalog of the `users` table. -/
def usersCatalog : Catalog where
  table := "users"
  description := .text
    "One row per user per snapshot date with subscription and engagement metrics."
  fields :=
    [{ name := "user_id", physicalType := "VARCHAR", ingestType := "string",
       category := "identifier", description := .text "User identifier" },
     { name := "snapshot_date", physicalType := "DATE", ingestType := "timestamp",
       category := "temporal", description := .text "Snapshot date" },
     { name := "plan_tier", physicalType := "VARCHAR", ingestType := "string",
       category := "categorical",
       members := some (["free", "starter", "pro", "enterprise"].map .text),
       description := .text "Subscription plan" },
     { name := "region", physicalType := "VARCHAR", ingestType := "string",
       category := "categorical", description := .text "Sales region" },
     { name := "has_churned", physicalType := "BOOLEAN", ingestType := "boolean",
       category := "categorical", description := .text "Churn flag" },
     { name := "net_change_30d", physicalType := "INTEGER", ingestType := "number",
       category := "numerical",
       description := .text "Net change in active seats over the trailing 30 days" },
     { name := "lifetime_value", physicalType := "DECIMAL(12,2)", ingestType := "number",
       category := "numerical", description := .text "Lifetime value in USD" }]
  dimensions :=
    [{ source := "snapshot_date", aliasName := "Snapshot Date", sort := some (.text "asc") },
     { source := "plan_tier", aliasName := "Plan Tier",
       sort := some (.text "custom:free,starter,pro,enterprise") },
     { source := "region", aliasName := "Region", sort := some (.text "natural") },
     { source := "has_churned", aliasName := "Churned", sort := some (.text "natural") }]
  measures :=
    [{ source := "net_change_30d", description := .text "Seat movement",
       aggregations :=
         [{ aliasName := "net_change_30d", function := "sum", source := "net_change_30d" }] },
     { source := "lifetime_value", description := .text "Customer value",
       aggregations :=
         [{ aliasName := "total_lifetime_value", function := "sum", source := "lifetime_value",
            format := .text "currency", decimals := 2, currency := .text "USD" },
          { aliasName := "avg_lifetime_value", function := "avg", source := "lifetime_value",
            format := .text "currency", decimals := 2, currency := .text "USD" }] },
     { source := "_count", description := .text "Row count",
       aggregations :=
         [{ aliasName := "user_count", function := "count", source := "_count" }] },
     { source := "user_id", description := .text "Distinct users",
       aggregations :=
         [{ aliasName := "active_users", function := "count_distinct", source := "user_id" }],
       formulas :=
         [{ aliasName := "churn_rate",
            sql := "SUM(CASE WHEN has_churned THEN 1 ELSE 0 END) * 100.0 / NULLIF(COUNT(*), 0)",
            source := "user_id", format := .text "percentage", decimals := 1,
            description := .text "Share of user snapshots flagged as churned" }] }]

theorem accepted_sessionsCatalog : sessionsCatalog.Accepted := by
  decide

theorem accepted_usersCatalog : usersCatalog.Accepted := by
  decide

/-- The registry with the bundled catalogs. -/
def Registry.bundled : Registry where
  catalogs := [("sessions", sessionsCatalog), ("users", usersCatalog)]
  versions := [("sessions", 1), ("users", 2)]
  version := 2

end MetricLayer
