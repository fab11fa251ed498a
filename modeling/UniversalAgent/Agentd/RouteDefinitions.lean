import UniversalAgent.Agentd.Routing

/-!
# Agentd — RouteDefinitions

The route tables of the application, in the order in which it consults them, and those that the domain
packages contribute.
-/

namespace UniversalAgent.Agentd

def adminRouteDefinitions : List RouteDefinition :=
  [⟨"admin_tenant_write", "/v1/admin/tenants", ["POST", "GET"]⟩,
    ⟨"admin_tenant_status", "/v1/admin/tenants/{tenant}/status", ["PUT"]⟩,
    ⟨"admin_user_write", "/v1/admin/users", ["POST", "GET"]⟩,
    ⟨"admin_user_status", "/v1/admin/users/{user}/status", ["PUT"]⟩,
    ⟨"admin_members_list", "/v1/admin/tenants/{tenant}/members", ["GET"]⟩,
    ⟨"admin_member_write", "/v1/admin/tenants/{tenant}/members/{user}", ["PUT", "DELETE"]⟩,
    ⟨"admin_credential_write", "/v1/admin/credentials", ["POST", "GET"]⟩,
    ⟨"admin_credential_revoke", "/v1/admin/credentials/{credential}", ["DELETE"]⟩,
    ⟨"admin_audit", "/v1/admin/audit", ["GET"]⟩]

def memoryRouteDefinitions : List RouteDefinition :=
  [⟨"memory_create", "/v1/memory", ["POST"]⟩,
    ⟨"memory_record", "/v1/memory/{memory_id}", ["GET", "DELETE"]⟩]

def configAdminRouteDefinitions : List RouteDefinition :=
  [⟨"config_profiles_create", "/v1/profiles", ["POST"]⟩,
    ⟨"config_profile_write", "/v1/profiles/{profile}", ["PATCH", "DELETE"]⟩,
    ⟨"config_validate", "/v1/config/validate", ["POST"]⟩,
    ⟨"config_profiles_list", "/v1/config/profiles", ["GET"]⟩,
    ⟨"config_audit", "/v1/config/audit", ["GET"]⟩,
    ⟨"config_read", "/v1/config", ["PUT"]⟩,
    ⟨"config_domain_profiles", "/v1/domains/{name}/profiles", ["GET", "PUT"]⟩]

def staticGetRouteDefinitions : List RouteDefinition :=
  [{ name := "openapi", template := "/openapi.json" },
    { name := "health", template := "/health" },
    { name := "ready", template := "/ready" },
    { name := "prometheus_scrape", template := "/metrics" },
    { name := "domains", template := "/v1/domains" },
    { name := "domain_packages", template := "/v1/domain-packages" },
    { name := "capabilities", template := "/v1/capabilities" },
    { name := "tools", template := "/v1/tools" },
    { name := "policies", template := "/v1/policies" },
    { name := "evaluators", template := "/v1/evaluators" },
    { name := "memory", template := "/v1/memory" },
    { name := "profiles", template := "/v1/profiles" },
    { name := "multi_agent", template := "/v1/multi-agent" },
    { name := "config", template := "/v1/config" },
    { name := "distributed_snapshot", template := "/v1/distributed/snapshot" },
    { name := "distributed_health", template := "/v1/distributed/health" },
    { name := "metrics", template := "/v1/metrics" },
    { name := "metrics_prometheus", template := "/v1/metrics/prometheus" },
    { name := "cost", template := "/v1/cost" },
    { name := "logs", template := "/v1/logs" },
    { name := "traces", template := "/v1/traces" },
    { name := "traces_otlp", template := "/v1/traces/otlp" },
    { name := "doctor", template := "/v1/doctor" },
    { name := "audit", template := "/v1/audit" },
    { name := "audit_integrity", template := "/v1/audit/integrity" }]

def contributedRouteDefinitions : List RouteDefinition :=
  [⟨"kubernetes_preflight", "/v1/kubernetes/preflight", ["POST"]⟩,
    ⟨"kubernetes_model_probe", "/v1/kubernetes/model-probe", ["POST"]⟩,
    ⟨"kubernetes_check", "/v1/kubernetes/check", ["POST"]⟩,
    ⟨"kubernetes_run", "/v1/kubernetes/run", ["POST"]⟩,
    ⟨"kubernetes_evidence", "/v1/kubernetes/evidence", ["POST"]⟩,
    ⟨"workspace_run", "/v1/workspace/run", ["POST"]⟩,
    ⟨"workspace_evidence", "/v1/workspace/evidence", ["POST"]⟩]

def evalRouteDefinitions : List RouteDefinition :=
  [⟨"eval_list", "/v1/eval/list", ["POST"]⟩,
    ⟨"eval_run", "/v1/eval/run", ["POST"]⟩,
    ⟨"eval_replay", "/v1/eval/replay", ["POST"]⟩,
    ⟨"eval_recordings", "/v1/eval/recordings", ["POST"]⟩,
    ⟨"eval_compare", "/v1/eval/compare", ["POST"]⟩,
    ⟨"eval_reports", "/v1/eval/reports", ["POST"]⟩,
    ⟨"eval_datasets", "/v1/eval/datasets", ["POST"]⟩,
    ⟨"eval_dataset", "/v1/eval/dataset", ["POST"]⟩]

def ecosystemRouteDefinitions : List RouteDefinition :=
  [⟨"ecosystem_catalog", "/v1/ecosystem/catalog", ["POST"]⟩,
    ⟨"ecosystem_verify", "/v1/ecosystem/verify", ["POST"]⟩,
    ⟨"ecosystem_export", "/v1/ecosystem/export", ["POST"]⟩,
    ⟨"ecosystem_registry", "/v1/ecosystem/registry", ["POST"]⟩,
    ⟨"ecosystem_install", "/v1/ecosystem/install", ["POST"]⟩,
    ⟨"ecosystem_store", "/v1/ecosystem/store", ["POST"]⟩]

def consoleRouteDefinitions : List RouteDefinition :=
  [{ name := "console_root", template := "/" },
    { name := "console_root", template := "/console" },
    { name := "console_asset", template := "/console/app.js" },
    { name := "console_asset", template := "/console/style.css" },
    { name := "console_settings", template := "/console/settings" },
    { name := "console_profiles", template := "/console/profiles" },
    { name := "console_evaluations", template := "/console/evaluations" },
    { name := "console_doctor", template := "/console/doctor" },
    { name := "console_distributed", template := "/console/distributed" },
    { name := "console_multi_agent", template := "/console/multi-agent" },
    { name := "console_evidence", template := "/console/evidence" },
    { name := "console_world", template := "/console/world" },
    { name := "console_domain_package_version"
      template := "/console/domain-packages/{name}/{version}" },
    { name := "console_domain_package", template := "/console/domain-packages/{name}" },
    { name := "console_domain_version", template := "/console/domains/{name}/{version}" },
    { name := "console_domain", template := "/console/domains/{name}" },
    { name := "console_sessions", template := "/console/sessions" },
    { name := "console_session_timeline", template := "/console/sessions/{session_id}/timeline" },
    { name := "console_session_world_explorer"
      template := "/console/sessions/{session_id}/world-explorer" },
    { name := "console_session_evidence_drilldown"
      template := "/console/sessions/{session_id}/evidence-drilldown" },
    ⟨"console_session_pause", "/console/sessions/{session_id}/pause", ["POST"]⟩,
    ⟨"console_session_resume", "/console/sessions/{session_id}/resume", ["POST"]⟩,
    ⟨"console_session_cancel", "/console/sessions/{session_id}/cancel", ["POST"]⟩,
    { name := "console_session_suffix", template := "/console/sessions/{session_id}/{suffix}" },
    { name := "console_session", template := "/console/sessions/{session_id}" }]

def detailGetRouteDefinitions : List RouteDefinition :=
  [{ name := "profile", template := "/v1/profiles/{profile}" },
    { name := "domain_package", template := "/v1/domain-packages/{name}" },
    { name := "domain_package_version", template := "/v1/domain-packages/{name}/{version}" }]

def distributedRouteDefinitions : List RouteDefinition :=
  [⟨"distributed_worker_action", "/v1/distributed/workers/{worker_id}/{action}", ["POST"]⟩,
    ⟨"distributed_lock_acquire", "/v1/distributed/locks/acquire", ["POST"]⟩,
    ⟨"distributed_lock_lease_action", "/v1/distributed/lock-leases/{lease_id}/{action}", ["POST"]⟩,
    ⟨"distributed_goals", "/v1/distributed/goals", ["POST"]⟩,
    ⟨"distributed_pending_actions_schedule", "/v1/distributed/pending-actions/schedule", ["POST"]⟩,
    ⟨"distributed_schedule_action",
      "/v1/distributed/sessions/{session_id}/tasks/{task_id}/actions/{action_id}/schedule",
      ["POST"]⟩,
    ⟨"distributed_schedule_task", "/v1/distributed/sessions/{session_id}/tasks/{task_id}/schedule",
      ["POST"]⟩,
    ⟨"distributed_schedule_session", "/v1/distributed/sessions/{session_id}/schedule", ["POST"]⟩,
    ⟨"distributed_expire", "/v1/distributed/expire", ["POST"]⟩,
    ⟨"distributed_prune_terminal", "/v1/distributed/prune-terminal", ["POST"]⟩,
    ⟨"distributed_cancel", "/v1/distributed/work-items/{work_item_id}/cancel", ["POST"]⟩,
    ⟨"state_event_repair", "/v1/doctor/state-events/repair", ["POST"]⟩]

def sessionRouteDefinitions : List RouteDefinition :=
  [⟨"sessions", "/v1/sessions", ["GET", "POST"]⟩,
    { name := "session", template := "/v1/sessions/{session_id}" },
    { name := "session_diagnostics", template := "/v1/sessions/{session_id}/diagnostics" },
    { name := "session_evidence", template := "/v1/sessions/{session_id}/evidence" },
    { name := "session_world", template := "/v1/sessions/{session_id}/world" },
    { name := "session_events", template := "/v1/sessions/{session_id}/events" },
    ⟨"session_messages", "/v1/sessions/{session_id}/messages", ["POST"]⟩,
    { name := "session_events_stream", template := "/v1/sessions/{session_id}/events/stream" },
    { name := "session_audit", template := "/v1/sessions/{session_id}/audit" },
    { name := "session_audit_integrity"
      template := "/v1/sessions/{session_id}/audit/integrity" },
    { name := "session_cost", template := "/v1/sessions/{session_id}/cost" },
    { name := "session_logs", template := "/v1/sessions/{session_id}/logs" },
    { name := "session_traces", template := "/v1/sessions/{session_id}/traces" },
    { name := "session_traces_otlp", template := "/v1/sessions/{session_id}/traces/otlp" },
    { name := "session_llm_calls", template := "/v1/sessions/{session_id}/llm-calls" },
    ⟨"session_pause", "/v1/sessions/{session_id}/pause", ["POST"]⟩,
    ⟨"session_resume", "/v1/sessions/{session_id}/resume", ["POST"]⟩,
    ⟨"session_cancel", "/v1/sessions/{session_id}/cancel", ["POST"]⟩]

def routeDefinitions : List RouteDefinition :=
  adminRouteDefinitions ++ memoryRouteDefinitions ++ configAdminRouteDefinitions ++
    staticGetRouteDefinitions ++ contributedRouteDefinitions ++ evalRouteDefinitions ++
    ecosystemRouteDefinitions ++ consoleRouteDefinitions ++ detailGetRouteDefinitions ++
    distributedRouteDefinitions ++ sessionRouteDefinitions

/-- The route treats the method as writing: it is one of its methods, and not the one that reads. -/
def RouteDefinition.writes (route : RouteDefinition) (method : String) : Prop :=
  method ∈ route.methods ∧ method ≠ "GET"

instance (route : RouteDefinition) (method : String) : Decidable (route.writes method) :=
  inferInstanceAs (Decidable (_ ∧ _))

/-- A method that is for reading is written by no route. -/
theorem not_writes_of_read {method : String} (h : method ∈ ["GET", "HEAD", "OPTIONS"]) :
    ∀ route ∈ routeDefinitions, ¬route.writes method := by
  have hall : ∀ method ∈ ["GET", "HEAD", "OPTIONS"], ∀ route ∈ routeDefinitions,
      ¬route.writes method := by
    decide +kernel
  exact hall method h

end UniversalAgent.Agentd
