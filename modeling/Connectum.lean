import Connectum.Events.Lifecycle
import Connectum.Events.Amqp.Consumer
import Connectum.Events.Amqp.SingleFlight
import Connectum.Events.Amqp.RecoverySafety
import Connectum.Events.DrainBound
import Connectum.Events.DrainAck
import Connectum.Events.Kafka.Session
import Connectum.Events.Dlq
import Connectum.Auth.GatewayAuthInterceptor
import Connectum.Auth.CacheSoundness
import Connectum.Auth.SessionCache
import Connectum.Auth.LocalCalls
import Connectum.Auth.Containment
import Connectum.Events.Amqp.TopicExchange
import Connectum.Events.Nats.Rollback
import Connectum.Events.Nats.Deliveries
import Connectum.Events.Redis.GroupDelivery
import Connectum.Events.Redis.Reclaim
import Connectum.Events.BusModes
import Connectum.Core.ShutdownIsolation
import Connectum.Core.GracefulShutdown
import Connectum.Core.BuildRoutes
import Connectum.Core.StreamBridge
import Connectum.Core.TransportValidation
import Connectum.Events.Attempts
import Connectum.Auth.AuthzInterceptor
import Connectum.Healthcheck.Registry
import Connectum.Healthcheck.HttpHandler
import Connectum.Otel.SpanLifecycle
import Connectum.Otel.Traced
import Connectum.Otel.Provider
import Connectum.Events.BroadcastDelivery
import Connectum.Events.Kafka.TopicMatcher
import Connectum.Events.Nats.Envelope
import Connectum.Events.EnvelopeRoundTrip
import Connectum.Auth.Propagation
import Connectum.Events.Onion
import Connectum.Events.Retry
import Connectum.Events.Loopback
import Connectum.Auth.AddressRanges
import Connectum.Auth.Privileges
import Connectum.Core.EnabledServices
import Connectum.Auth.CacheHistory
import Connectum.HeaderList
import Connectum.Interceptors.MethodFilter
import Connectum.Core.CallFrame
import Connectum.Core.ServiceCatalog
import Connectum.Core.CatalogDispatcher
import Connectum.Core.CatalogClient
import Connectum.Auth.HeaderLegality
import Connectum.Reflection.CollectFileProtos
import Connectum.Interceptors.HeaderReflection
import Connectum.Core.ServerContents
import Connectum.Core.ServerShutdown
import Connectum.Healthcheck.Watch
import Connectum.ProtocGenCatalog.OutputFile
import Connectum.Core.StreamDelivery
import Connectum.Auth.GatewayCall
import Connectum.Interceptors.Effort
import Connectum.Core.RoutedCalls
